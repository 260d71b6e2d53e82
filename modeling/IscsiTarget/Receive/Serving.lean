import IscsiTarget.Answers.Settings
import IscsiTarget.Frame.RoundTrip
import IscsiTarget.Lib.Simulation

/-!
# From bytes to PDUs

The connection handler works on a stream of bytes, and `serve` on PDUs. Here is the bridge. A PDU
that an initiator frames with the digests in force (`Pdu.wire`) comes out of `receive_pdu` as it
went in (`receivePdu_of_wire`), and one turn of the handler is one step of `Served.serve`, the
handler over PDUs. `Handler.run_served` carries this over a whole connection, logins that change
the digests halfway included; it is a lock-step simulation, so a fault on one side is a fault on
the other.

`Handler.refines_serve` is what the results about runs of `serve` rest on: over a stream of PDUs
other than logins, what the handler does to the target is a run of `serve` on the first of them, on
all of them if it is still there to go on.
-/

namespace IscsiTarget

open Reception

/-! ### The initiator's side -/

/-- A PDU without additional header segments whose header names the length of
its data, which is within the limit of the target. It is what an ordinary
initiator sends. -/
structure Pdu.Plain (build : Build) (q : Pdu) : Prop where
  ahs : q.bhs.getAhsLength = 0
  ahsList : q.ahsList = []
  length : q.bhs.getDataLength = q.data.length
  fits : q.data.length ≤ build.maxDataSegmentSize

/-- The bytes of a PDU, framed with the digests in force. A login has none. -/
def Pdu.wire (ses : Session) (q : Pdu) : Bytes :=
  if q.bhs.getOpcode = .loginReq then layout false false q.bhs q.data
  else layout ses.getHeaderDigest ses.getDataDigest q.bhs q.data

/-- What `set_data` does to the session: a login with data negotiates. -/
def Pdu.negotiate (ses : Session) (q : Pdu) : Except Fault Session :=
  if q.bhs.getOpcode = .loginReq ∧ q.data ≠ [] then loginSetData ses q.data else .ok ses

/-- What `receive_pdu` reports for a PDU that has arrived intact. -/
def Pdu.receiveReason (q : Pdu) : FailReason :=
  if q.bhs.getOpcode = .other then .invalidCommand else .ok

/-- Neither a login nor a PDU with an opcode that is not implemented. -/
def Pdu.Ordinary (q : Pdu) : Prop := q.bhs.getOpcode ≠ .loginReq ∧ q.bhs.getOpcode ≠ .other

section

variable {β : Type} {T : Target β}

/-! ### One PDU off the connection -/

/-- There is no data segment. -/
theorem readData_of_empty {r : Reception} (h : r.pdu.bhs.getDataLength = 0) (fuel : ℕ) :
    r.readData T fuel = .ok r := by
  simp [readData, h]

/-- The data segment of a login, which `set_data` reads. It comes without a
digest, whatever has been negotiated. -/
theorem readData_of_login {r : Reception} {q : Pdu} (h_op : r.pdu.bhs.getOpcode = .loginReq)
    (h_len : r.pdu.bhs.getDataLength = q.data.length)
    (h_max : q.data.length ≤ T.build.maxDataSegmentSize) (h_data : q.data ≠ [])
    (h : r.link.Carries (segment q.data)) (fuel : ℕ) :
    r.readData T fuel = (loginSetData r.ses q.data).map fun ses => { r with
      pdu := { r.pdu with data := q.data, data_lt := q.data_lt }
      link := r.link.skip (segment q.data).length
      ses := ses } := by
  have h_pos := List.length_pos_iff.mpr h_data
  unfold readData
  dsimp only
  rw [if_neg (show ¬r.pdu.bhs.getDataLength > T.build.maxDataSegmentSize by omega),
    if_pos (show r.pdu.bhs.getDataLength ≠ 0 by omega)]
  have h_recv := h.recv
  rw [length_segment, ← h_len] at h_recv
  have h_take : (segment q.data).take r.pdu.bhs.getDataLength = q.data := by
    rw [h_len, segment, List.take_left]
  have h_set {d : Bytes} (h_eq : d = q.data) (h_d : d.length < 2 ^ 24) :
      setData { r with link := r.link.skip (padded r.pdu.bhs.getDataLength) } d h_d =
        (loginSetData r.ses q.data).map fun ses => { r with
          pdu := { r.pdu with data := q.data, data_lt := q.data_lt }
          link := r.link.skip (padded r.pdu.bhs.getDataLength)
          ses := ses } := by
    subst h_eq
    unfold setData
    rw [h_op]
  rw [h_recv]
  dsimp only
  rw [h_set h_take, length_segment, ← h_len]
  cases loginSetData r.ses q.data with
  | error f => rfl
  | ok ses =>
    -- a login has no digest, whatever it has just negotiated
    have h_has : r.pdu.hasDigest = false := by simp [Pdu.hasDigest, h_op]
    simp only [Except.map]
    unfold readDataDigest
    rw [if_neg]
    rintro ⟨-, h_digest⟩
    exact Bool.false_ne_true (h_has.symm.trans h_digest)

/-- A login comes off the connection, without digests: none is looked for, even
when the session has them in force. -/
theorem receivePdu_of_login {l : Link} {ses : Session} {q : Pdu} (h_plain : q.Plain T.build)
    (h_op : q.bhs.getOpcode = .loginReq) (h : l.Carries (layout false false q.bhs q.data))
    (fuel : ℕ) :
    receivePdu T fuel l ses = (q.negotiate ses).map fun ses' =>
      { pdu := some q
        failReason := .ok
        link := l.skip (layout false false q.bhs q.data).length
        ses := ses' } := by
  unfold layout at h ⊢
  obtain ⟨h_front, h_data⟩ := h.append
  rw [headerDigestBytes, if_neg Bool.false_ne_true, List.append_nil] at h_front h_data ⊢
  have h_recv := h_front.recv
  rw [q.bhs.length_toList] at h_recv h_data
  unfold receivePdu
  rw [h_recv]
  dsimp only
  rw [q.bhs.ofBytes_toList]
  -- there are no additional segments
  have h_first : (firstReception (l.skip 48) ses q.bhs).readAhs fuel =
      .ok (firstReception (l.skip 48) ses q.bhs) := by
    unfold readAhs
    exact if_neg (not_not.mpr h_plain.ahs)
  -- and a login has no header digest, whatever has been negotiated
  have h_second : (firstReception (l.skip 48) ses q.bhs).readHeaderDigest T =
      firstReception (l.skip 48) ses q.bhs := by
    have h_has : (firstReception (l.skip 48) ses q.bhs).pdu.hasDigest = false := by
      simp [Pdu.hasDigest, firstReception, h_op]
    unfold readHeaderDigest
    rw [if_neg fun h_both => Bool.false_ne_true (h_has.symm.trans h_both.2)]
  unfold receiveBody
  rw [h_first]
  simp only [Except.bind]
  rw [h_second]
  obtain ⟨bhs, ahsList, data, data_lt⟩ := q
  obtain rfl : ahsList = [] := h_plain.ahsList
  dsimp only at h_op h_data h_plain ⊢
  have h_reason : (firstReception (l.skip 48) ses bhs).pduError = .ok := by
    simp [firstReception, h_op]
  by_cases h_empty : data = []
  · subst h_empty
    -- without text there is nothing to negotiate
    have h_none : Pdu.negotiate ses ⟨bhs, [], [], data_lt⟩ = .ok ses :=
      if_neg fun h_both => h_both.2 rfl
    have h_len : (firstReception (l.skip 48) ses bhs).pdu.bhs.getDataLength = 0 := by
      rw [show (firstReception (l.skip 48) ses bhs).pdu.bhs = bhs from rfl]
      exact h_plain.length
    rw [readData_of_empty h_len, h_none]
    simp only [Except.map, received, h_reason]
    simp [firstReception]
  · -- the text changes the settings while the data segment is read
    have h_neg : Pdu.negotiate ses ⟨bhs, [], data, data_lt⟩ = loginSetData ses data :=
      if_pos ⟨h_op, h_empty⟩
    rw [if_neg h_empty, dataDigestBytes, if_neg Bool.false_ne_true, List.append_nil] at h_data
    have h_third := @readData_of_login _ T (firstReception (l.skip 48) ses bhs)
      ⟨bhs, [], data, data_lt⟩ h_op h_plain.length h_plain.fits h_empty h_data fuel
    rw [h_third, h_neg]
    cases h_set : loginSetData ses data with
    | error f => simp [firstReception, h_set, Except.map]
    | ok ses' =>
      simp [firstReception, h_set, h_op, h_empty, Except.map, received, dataDigestBytes,
        Link.skip_skip]

/-- **A PDU comes off the connection** as the initiator has framed it. A login
changes the session while it is received, and no other PDU does. -/
theorem receivePdu_of_wire {l : Link} {ses : Session} {q : Pdu} (h_plain : q.Plain T.build)
    (h : l.Carries (q.wire ses)) (fuel : ℕ) :
    receivePdu T fuel l ses = (q.negotiate ses).map fun ses' =>
      { pdu := some q
        failReason := q.receiveReason
        link := l.skip (q.wire ses).length
        ses := ses' } := by
  by_cases h_op : q.bhs.getOpcode = .loginReq
  · have h_reason : q.receiveReason = .ok := by simp [Pdu.receiveReason, h_op]
    unfold Pdu.wire at h ⊢
    rw [if_pos h_op] at h ⊢
    rw [receivePdu_of_login h_plain h_op h fuel, h_reason]
  · unfold Pdu.wire at h ⊢
    rw [if_neg h_op] at h ⊢
    -- no login, so the settings stay, and the PDU is framed with their digests
    have h_none : q.negotiate ses = .ok ses := if_neg fun h_both => h_op h_both.1
    rw [receivePdu_of_carries h_op h_plain.ahs h_plain.length h_plain.fits h q.data_lt fuel, h_none]
    obtain ⟨bhs, ahsList, data, data_lt⟩ := q
    obtain rfl : ahsList = [] := h_plain.ahsList
    rfl

/-! ### The handler over PDUs -/

end

/-- The variables of the loop of `handler`, but for the connection. -/
structure Served (β : Type) where
  conn : Conn β
  failCounter : ℕ := 0
  ok : Bool := true

/-- What the handler knows besides the connection. -/
def Handler.served {β : Type} (h : Handler β) : Served β where
  conn := h.conn
  failCounter := h.failCounter
  ok := h.ok

variable {β : Type} (T : Target β)

/-- The end of a turn of the handler, by what has been done about a failure.
Sixteen failures in a row end the connection, and a PDU that is dealt with sets
the count to zero again. -/
def Served.after (s : Served β) (ifr : FailReason) : FailureReply × Conn β → Served β
  | (.skipped, c) => { s with conn := c }
  | (reply, c) =>
    let failCounter := if ifr = .ok then 0 else s.failCounter + 1
    { conn := c
      failCounter := failCounter
      ok := reply != .sent false && decide (failCounter < 16) && ifr != .connection }

/-- One turn of the loop of `handler` with a PDU that has arrived intact. -/
def Served.serve (fuel : ℕ) (s : Served β) (q : Pdu) : Except Fault (Served β) :=
  (q.negotiate s.conn.ses).bind fun ses =>
    (pushReceived T fuel { s.conn with ses := ses } (some q) q.receiveReason).bind fun r =>
      (replyToFailure T r.2 (some q) r.1).map (s.after r.1)

/-- The connection carries these PDUs, each framed with the digests that are in
force when its turn comes, as far as the handler gets. -/
def Carried (fuel : ℕ) : Link → Served β → List Pdu → Prop
  | _, _, [] => True
  | l, s, q :: qs => s.ok = true → l.Carries (q.wire s.conn.ses) ∧ q.Plain T.build ∧
      ∀ s', s.serve T fuel q = .ok s' → Carried fuel (l.skip (q.wire s.conn.ses).length) s' qs

variable {T}

/-- One turn. What it does depends on the connection only through the PDU, and
it takes from the connection exactly the bytes of that PDU. -/
theorem Handler.iterate_served (fuel : ℕ) {h : Handler β} {q : Pdu} (h_plain : q.Plain T.build)
    (h_wire : h.link.Carries (q.wire h.conn.ses)) :
    (h.iterate T fuel).map Handler.served = h.served.serve T fuel q ∧
      ∀ h', h.iterate T fuel = .ok h' →
        h'.link = h.link.skip (q.wire h.conn.ses).length := by
  unfold Handler.iterate Served.serve
  rw [receivePdu_of_wire h_plain h_wire]
  -- the two go through the same stages: receive, push, and answer what has failed
  cases h_neg : q.negotiate h.conn.ses with
  | error f =>
    have h_neg' : q.negotiate h.served.conn.ses = .error f := h_neg
    rw [h_neg']
    exact ⟨rfl, fun h' h_eq => by cases h_eq⟩
  | ok ses =>
    have h_neg' : q.negotiate h.served.conn.ses = .ok ses := h_neg
    rw [h_neg']
    simp only [Except.map, Except.bind]
    cases h_push : pushReceived T fuel { h.conn with ses := ses } (some q) q.receiveReason with
    | error f =>
      have h_push' : pushReceived T fuel { h.served.conn with ses := ses } (some q)
        q.receiveReason = .error f := h_push
      rw [h_push']
      exact ⟨rfl, fun h' h_eq => by cases h_eq⟩
    | ok r =>
      have h_push' : pushReceived T fuel { h.served.conn with ses := ses } (some q)
        q.receiveReason = .ok r := h_push
      rw [h_push']
      obtain ⟨ifr, c⟩ := r
      dsimp only
      cases h_reply : replyToFailure T c (some q) ifr with
      | error f => exact ⟨rfl, fun h' h_eq => by cases h_eq⟩
      | ok reply =>
        obtain ⟨reply, c'⟩ := reply
        cases reply with
        | skipped => exact ⟨rfl, fun h' h_eq => by rw [← Except.ok.inj h_eq]⟩
        | notNeeded => exact ⟨rfl, fun h' h_eq => by rw [← Except.ok.inj h_eq]⟩
        | sent sentOk => exact ⟨rfl, fun h' h_eq => by rw [← Except.ok.inj h_eq]⟩

/-- As many turns of the handler as there are PDUs on the connection, turn by
turn. By induction on the PDUs. -/
theorem Handler.run_eq_served {fuel : ℕ} {h : Handler β} {qs : List Pdu}
    (h_carried : Carried T fuel h.link h.served qs) :
    (Machine.run (Handler.step T fuel) h (qs.map fun _ => ())).map Handler.served =
      Machine.run (Machine.stepWhile Served.ok (Served.serve T fuel)) h.served qs := by
  refine Machine.run_simulation Handler.served (fun _ => ())
    (I := fun qs h => Carried T fuel h.link h.served qs) ?_ qs h h_carried
  intro q qs h h_carried
  by_cases h_ok : h.ok = true
  · -- the next PDU comes off the connection, and the others are behind it
    obtain ⟨h_wire, h_plain, h_rest⟩ := h_carried h_ok
    obtain ⟨h_eq, h_link⟩ := iterate_served fuel h_plain h_wire
    have h_step : Handler.step T fuel h () = h.iterate T fuel := if_pos h_ok
    have h_step' : Machine.stepWhile Served.ok (Served.serve T fuel) h.served q =
      h.served.serve T fuel q := if_pos h_ok
    rw [h_step, h_step']
    refine ⟨h_eq, fun h' h_iter => ?_⟩
    rw [h_link h' h_iter]
    refine h_rest _ ?_
    rw [← h_eq, h_iter]
    rfl
  · -- it has stopped, and nothing more has to be on the connection
    have h_step : Handler.step T fuel h () = .ok h := if_neg h_ok
    have h_step' : Machine.stepWhile Served.ok (Served.serve T fuel) h.served q = .ok h.served :=
      if_neg h_ok
    rw [h_step, h_step']
    refine ⟨rfl, fun h' h_eq => ?_⟩
    obtain rfl := Except.ok.inj h_eq
    cases qs with
    | nil => trivial
    | cons q qs => exact fun h => absurd h h_ok

/-- A run of the handler has served the first of the PDUs, all of them if it
still goes on. -/
theorem Handler.exists_run_serve {fuel : ℕ} {h h' : Handler β} {qs : List Pdu}
    (h_carried : Carried T fuel h.link h.served qs)
    (h_run : Machine.run (Handler.step T fuel) h (qs.map fun _ => ()) = .ok h') :
    ∃ n ≤ qs.length,
      Machine.run (Served.serve T fuel) h.served (qs.take n) = .ok h'.served ∧
        (h'.ok = true → n = qs.length) := by
  have h_while := Handler.run_eq_served h_carried
  rw [h_run] at h_while
  exact Machine.run_stepWhile h_while.symm

/-- **The handler over bytes is the handler over PDUs.** On a connection that
carries the PDUs `qs`, as many turns of the handler end as `qs` does when it is
handed over PDU by PDU, in the same state or in the same fault; and what has
been served then are the first of the PDUs, all of them if the handler still
goes on. -/
theorem Handler.run_served {fuel : ℕ} {h : Handler β} {qs : List Pdu}
    (h_carried : Carried T fuel h.link h.served qs) :
    (Machine.run (Handler.step T fuel) h (qs.map fun _ => ())).map Handler.served =
        Machine.run (Machine.stepWhile Served.ok (Served.serve T fuel)) h.served qs ∧
      ∀ h', Machine.run (Handler.step T fuel) h (qs.map fun _ => ()) = .ok h' →
        ∃ n ≤ qs.length,
          Machine.run (Served.serve T fuel) h.served (qs.take n) = .ok h'.served ∧
            (h'.ok = true → n = qs.length) :=
  ⟨run_eq_served h_carried, fun _ => exists_run_serve h_carried⟩

/-! ### Runs of `serve` -/

theorem Pdu.wire_of_settings {q : Pdu} {ses ses' : Session} (h : ses.settings = ses'.settings) :
    q.wire ses = q.wire ses' := by
  unfold Pdu.wire
  rw [Session.getHeaderDigest_of_settings h, Session.getDataDigest_of_settings h]

/-- What a turn has gone through when it ends: the parameters of a login, the
handling of the PDU, and what is sent about a failure. -/
theorem Served.exists_of_serve {fuel : ℕ} {s s' : Served β} {q : Pdu}
    (h : s.serve T fuel q = .ok s') :
    ∃ ses r reply, q.negotiate s.conn.ses = .ok ses ∧
      pushReceived T fuel { s.conn with ses := ses } (some q) q.receiveReason = .ok r ∧
      replyToFailure T r.2 (some q) r.1 = .ok reply ∧ s' = s.after r.1 reply := by
  unfold Served.serve at h
  -- a fault in any of the stages leaves no state behind
  cases h_neg : q.negotiate s.conn.ses with
  | error f =>
    rw [h_neg] at h
    cases h
  | ok ses =>
    rw [h_neg] at h
    simp only [Except.bind] at h
    cases h_push : pushReceived T fuel { s.conn with ses := ses } (some q) q.receiveReason with
    | error f =>
      rw [h_push] at h
      cases h
    | ok r =>
      rw [h_push] at h
      dsimp only at h
      cases h_reply : replyToFailure T r.2 (some q) r.1 with
      | error f =>
        rw [h_reply] at h
        cases h
      | ok reply =>
        rw [h_reply] at h
        exact ⟨ses, r, reply, rfl, h_push, h_reply, (Except.ok.inj h).symm⟩

theorem Served.conn_after (s : Served β) (ifr : FailReason) (reply : FailureReply × Conn β) :
    (s.after ifr reply).conn = reply.2 := by
  obtain ⟨reply, c⟩ := reply
  cases reply <;> rfl

/-- A turn with an ordinary PDU is `serve`. There is nothing to negotiate, and a
failure is dealt with in `serve` already. -/
theorem Served.conn_serve {q : Pdu} (h_ord : q.Ordinary) (fuel : ℕ) (s : Served β) :
    (s.serve T fuel q).map Served.conn = IscsiTarget.serve T fuel s.conn q := by
  have h_neg : q.negotiate s.conn.ses = .ok s.conn.ses := if_neg fun h => h_ord.1 h.1
  have h_reason : q.receiveReason = .ok := if_neg h_ord.2
  unfold Served.serve IscsiTarget.serve
  rw [h_neg, h_reason]
  simp only [Except.bind, pushReceived, if_true]
  cases pushResponse T fuel s.conn q with
  | error f => rfl
  | ok r =>
    dsimp only
    cases replyToFailure T r.2 (some q) r.1 with
    | error f => rfl
    | ok reply => exact congrArg Except.ok (s.conn_after r.1 reply)

/-- Ordinary PDUs that are framed one behind the other are carried. None of them
is a login, so that the digests stay as they are. -/
theorem carried_of_carries {fuel : ℕ} {qs : List Pdu} (h_ord : ∀ q ∈ qs, q.Ordinary)
    (h_plain : ∀ q ∈ qs, q.Plain T.build) {l : Link} {s : Served β}
    (h_wire : l.Carries (qs.flatMap (Pdu.wire s.conn.ses))) : Carried T fuel l s qs := by
  induction qs generalizing l s with
  | nil => trivial
  | cons q qs ih =>
    intro _
    rw [List.flatMap_cons] at h_wire
    obtain ⟨h_first, h_rest⟩ := h_wire.append
    refine ⟨h_first, h_plain q List.mem_cons_self, fun s' h_serve => ?_⟩
    refine ih (fun q' hq' => h_ord q' (List.mem_cons_of_mem q hq'))
      (fun q' hq' => h_plain q' (List.mem_cons_of_mem q hq')) ?_
    -- the digests stay, so the rest is framed as it was
    have h_conn := Served.conn_serve (T := T) (h_ord q List.mem_cons_self) fuel s
    rw [h_serve] at h_conn
    have h_settings : s.conn.ses.settings = s'.conn.ses.settings :=
      (settings_serve h_conn.symm).symm
    have h_same : Pdu.wire s'.conn.ses = Pdu.wire s.conn.ses :=
      funext fun q' => (Pdu.wire_of_settings h_settings).symm
    rwa [h_same]

/-- **The handler refines `serve`.** On a connection that carries ordinary PDUs,
the handler has served the first ones of them, and all of them when it is still
there to go on; and it comes to an end without a fault when `serve` does. -/
theorem Handler.refines_serve {fuel : ℕ} {h : Handler β} {qs : List Pdu}
    (h_ord : ∀ q ∈ qs, q.Ordinary) (h_plain : ∀ q ∈ qs, q.Plain T.build)
    (h_wire : h.link.Carries (qs.flatMap (Pdu.wire h.conn.ses))) :
    (∀ h', Machine.run (Handler.step T fuel) h (qs.map fun _ => ()) = .ok h' →
      ∃ n ≤ qs.length, Machine.run (serve T fuel) h.conn (qs.take n) = .ok h'.conn ∧
        (h'.ok = true → n = qs.length)) ∧
      ∀ c', Machine.run (serve T fuel) h.conn qs = .ok c' →
        ∃ h', Machine.run (Handler.step T fuel) h (qs.map fun _ => ()) = .ok h' := by
  have h_carried : Carried T fuel h.link h.served qs := carried_of_carries h_ord h_plain h_wire
  have h_run := Handler.run_eq_served h_carried
  -- the handler over PDUs, without its flag, is `serve`
  have h_sim (ps : List Pdu) (h_ps : ∀ q ∈ ps, q.Ordinary) :
      (Machine.run (Served.serve T fuel) h.served ps).map Served.conn =
        Machine.run (serve T fuel) h.conn ps := by
    have h_lock : (Machine.run (Served.serve T fuel) h.served (ps.map id)).map Served.conn =
        Machine.run (serve T fuel) h.conn ps :=
      Machine.run_simulation Served.conn id (I := fun qs _ => ∀ q ∈ qs, q.Ordinary)
        (fun q qs s h_qs => ⟨Served.conn_serve (h_qs q List.mem_cons_self) fuel s,
          fun _ _ q' hq' => h_qs q' (List.mem_cons_of_mem q hq')⟩) ps h.served h_ps
    rwa [List.map_id] at h_lock
  refine ⟨fun h' h_eq => ?_, fun c' h_eq => ?_⟩
  · rw [h_eq] at h_run
    obtain ⟨n, hn, h_first, h_all⟩ := Machine.run_stepWhile h_run.symm
    refine ⟨n, hn, ?_, h_all⟩
    rw [← h_sim _ fun q hq => h_ord q (List.mem_of_mem_take hq), h_first]
    rfl
  · have h_serve := h_sim qs h_ord
    rw [h_eq] at h_serve
    obtain ⟨s', h_served⟩ : ∃ s', Machine.run (Served.serve T fuel) h.served qs = .ok s' := by
      cases h_end : Machine.run (Served.serve T fuel) h.served qs with
      | error f => simp [h_end, Except.map] at h_serve
      | ok s' => exact ⟨s', rfl⟩
    obtain ⟨s'', h_while⟩ : ∃ s'', Machine.run (Machine.stepWhile Served.ok (Served.serve T fuel))
        h.served qs = .ok s'' := Machine.exists_run_stepWhile h_served
    rw [h_while] at h_run
    cases h_end : Machine.run (Handler.step T fuel) h (qs.map fun _ => ()) with
    | error f =>
      rw [h_end] at h_run
      cases h_run
    | ok h' => exact ⟨h', rfl⟩

/-! ### A connection -/

/-- A connection over which these bytes come. -/
def Link.ofBytes (b : Bytes) : Link := { bytes := fun i => b.getD i 0 }

theorem Link.carries_ofBytes (a b c : Bytes) :
    ((ofBytes (a ++ (b ++ c))).skip a.length).Carries b := by
  refine ⟨delivers_of_eof rfl _, List.ext_getElem length_ahead fun i h_i h_b => ?_⟩
  have h_at : (a ++ (b ++ c))[a.length + i]? = some b[i] := by
    rw [List.getElem?_append_right (Nat.le_add_right _ _), Nat.add_sub_cancel_left,
      List.getElem?_append_left h_b, List.getElem?_eq_getElem h_b]
  simp [ahead, skip, ofBytes, h_at]

/-- A login that asks for header digests. -/
def Sample.digestRequest : Pdu :=
  { bhs := Header.ofBytes ([0x43, 0x87, 0, 0, 0, 0, 0, 19] ++ zeros 40)
    data := ascii "HeaderDigest=CRC32C"
    data_lt := by decide }

/-- The login, and a ping with a header digest. -/
def Sample.digestStream : Bytes :=
  Sample.digestRequest.wire (newSession (Sample.target 8)) ++
    (layout true false pingHeader [1, 2, 3, 4, 5] ++ [])

/-- A ping with five bytes. -/
def pingRequest : Pdu := { bhs := pingHeader, data := [1, 2, 3, 4, 5], data_lt := by decide }

/-- A new connection over which these bytes come. -/
def Sample.handler (b : Bytes) : Handler Ram :=
  { link := Link.ofBytes b, conn := Sample.conn 8 [] }

/-- The second PDU is framed with the digest that the first one has asked for. -/
theorem Sample.carried_digestStream :
    Carried (Sample.target 8) 99 (Sample.handler Sample.digestStream).link
      (Sample.handler Sample.digestStream).served [Sample.digestRequest, pingRequest] := by
  intro _
  have h_ses : (Sample.handler Sample.digestStream).served.conn.ses =
      newSession (Sample.target 8) := rfl
  have h_first := Link.carries_ofBytes []
    (Sample.digestRequest.wire (newSession (Sample.target 8)))
    (layout true false pingHeader [1, 2, 3, 4, 5] ++ [])
  rw [List.nil_append, ← Sample.digestStream, List.length_nil, ← h_ses] at h_first
  refine ⟨h_first, ⟨by decide, rfl, by decide, by decide⟩, ?_⟩
  intro s' h_serve _
  -- the login turns the header digest on
  have h_digests : ((Sample.handler Sample.digestStream).served.serve (Sample.target 8) 99
      Sample.digestRequest).map (fun s => (s.conn.ses.getHeaderDigest,
        s.conn.ses.getDataDigest)) = .ok (true, false) := by decide +kernel
  rw [h_serve] at h_digests
  have h_wire : pingRequest.wire s'.conn.ses = layout true false pingHeader [1, 2, 3, 4, 5] := by
    have h_both := Except.ok.inj h_digests
    unfold Pdu.wire
    rw [if_neg (by decide), (Prod.mk.inj h_both).1, (Prod.mk.inj h_both).2]
    rfl
  rw [h_wire]
  have h_second := Link.carries_ofBytes
    (Sample.digestRequest.wire (newSession (Sample.target 8)))
    (layout true false pingHeader [1, 2, 3, 4, 5]) []
  rw [← Sample.digestStream, ← h_ses] at h_second
  exact ⟨h_second, ⟨by decide, rfl, by decide, by decide⟩, fun _ _ => trivial⟩

theorem Handler.run_served_digestRequest :
    (Machine.run (Handler.step (Sample.target 8) 99) (Sample.handler Sample.digestStream)
        ([Sample.digestRequest, pingRequest].map fun _ => ())).map Handler.served =
      Machine.run (Machine.stepWhile Served.ok (Served.serve (Sample.target 8) 99))
        (Sample.handler Sample.digestStream).served [Sample.digestRequest, pingRequest] :=
  (Handler.run_served Sample.carried_digestStream).1

/-- Two pings, one behind the other. -/
def Sample.pings : Bytes :=
  [pingRequest, pingRequest].flatMap (Pdu.wire (newSession (Sample.target 8)))

theorem Handler.refines_serve_pings :
    (∀ h', Machine.run (Handler.step (Sample.target 8) 99) (Sample.handler Sample.pings)
        ([pingRequest, pingRequest].map fun _ => ()) = .ok h' →
      ∃ n ≤ [pingRequest, pingRequest].length,
        Machine.run (serve (Sample.target 8) 99) (Sample.handler Sample.pings).conn
          ([pingRequest, pingRequest].take n) = .ok h'.conn ∧
        (h'.ok = true → n = [pingRequest, pingRequest].length)) ∧
      ∀ c', Machine.run (serve (Sample.target 8) 99) (Sample.handler Sample.pings).conn
          [pingRequest, pingRequest] = .ok c' →
        ∃ h', Machine.run (Handler.step (Sample.target 8) 99) (Sample.handler Sample.pings)
          ([pingRequest, pingRequest].map fun _ => ()) = .ok h' := by
  have h_ses : (Sample.handler Sample.pings).conn.ses = newSession (Sample.target 8) := rfl
  have h_wire := Link.carries_ofBytes [] Sample.pings []
  rw [List.nil_append, List.append_nil] at h_wire
  have h_pair {p : Pdu → Prop} (h : p pingRequest) : ∀ q ∈ [pingRequest, pingRequest], p q := by
    intro q hq
    rw [List.mem_pair, or_self] at hq
    exact hq ▸ h
  refine Handler.refines_serve (h_pair ⟨by decide, by decide⟩)
    (h_pair ⟨by decide, rfl, by decide, by decide⟩) ?_
  rw [h_ses]
  exact h_wire

end IscsiTarget
