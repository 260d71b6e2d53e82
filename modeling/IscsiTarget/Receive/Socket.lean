import IscsiTarget.Frame.RoundTrip

/-!
# Receiving from a socket

`Socket.recv` is `com_client_sockets::recv`: it polls, looks at the stop flag, and reads as
much as there is, until all it was asked for is there. A `Link` says only what a connection
delivers and where it ends. That is all there is to say (`recvs_spec`): whatever pieces the
bytes arrive in, however often `poll` times out, and for whatever reason nothing comes any
more, a sequence of calls returns what it returns on the `Link`.
-/

namespace IscsiTarget

/-- Why nothing is received any more: `poll` fails, the stop flag is set, `read`
fails, or the peer has closed the connection. -/
inductive SocketEnd
  | pollFails
  | stop
  | readFails
  | closed
  deriving DecidableEq, Repr

/-- A socket, with everything its peer will ever send and with what the coming
calls of `poll` will find. -/
structure Socket where
  /-- What the peer sends. -/
  bytes : ℕ → UInt8
  /-- How much of it has been read. -/
  pos : ℕ
  /-- How much more can be read; `none` when there is no end. -/
  left : Option ℕ
  ending : SocketEnd
  /-- What the next calls of `poll` find: nothing in time, or as many bytes as
  this and one. -/
  polls : ℕ → Option ℕ
  /-- The number of the next one. -/
  call : ℕ

/-- What a turn of the loop meets: nothing in time, the end of the connection,
or some of the bytes it has asked for. -/
inductive Polled
  | timeout
  | ended (why : SocketEnd)
  | bytes (data : Bytes)
  deriving DecidableEq, Repr

namespace Socket

variable (s : Socket)

/-- `poll`, the stop flag, and `read` of `todo` bytes. A `read` may return fewer
bytes than it was asked for, but one at least. -/
def poll (todo : ℕ) : Polled × Socket :=
  let s' := { s with call := s.call + 1 }
  match s.polls s.call with
  | none => (.timeout, s')
  | some k =>
    if s.left = some 0 then (.ended s.ending, s')
    else
      let n := min todo (min (k + 1) (s.left.getD todo))
      (.bytes ((List.range n).map fun i => s.bytes (s.pos + i)),
        { s' with pos := s.pos + n, left := s.left.map (· - n) })

/-- The loop of `recv`, which may not end: `got` has been received, and `todo`
bytes are left to do. -/
def recvLoop : ℕ → ℕ → Bytes → Socket → Option (Option Bytes × Socket)
  | 0, _, _, _ => none
  | turns + 1, todo, got, s =>
    if todo = 0 then some (some got, s)
    else
      match s.poll todo with
      | (.timeout, s') => recvLoop turns todo got s'
      | (.ended _, s') => some (none, s')
      | (.bytes data, s') => recvLoop turns (todo - data.length) (got ++ data) s'

/-- `com_client_sockets::recv`: the bytes, or `none` when it returns false. -/
def recv (turns n : ℕ) : Option (Option Bytes × Socket) := s.recvLoop turns n []

/-- The connection behind a socket. -/
def link : Link := { bytes := s.bytes, eof := s.left.map (s.pos + ·), pos := s.pos }

variable {s}

/-! ### One turn -/

theorem delivers_link {n : ℕ} : s.link.Delivers n ↔ ∀ left, s.left = some left → n ≤ left := by
  unfold Link.Delivers link
  cases s.left with
  | none => simp
  | some left => simp

/-- What a turn does to the connection. Only the bytes it returns are taken from
it, in the order in which they stand. -/
inductive PollOutcome (s : Socket) (todo : ℕ) : Polled × Socket → Prop
  | timeout {s' : Socket} (h : s.polls s.call = none) (h_link : s'.link = s.link) :
    PollOutcome s todo (.timeout, s')
  | ended {s' : Socket} (h_left : s.left = some 0) (h_link : s'.link = s.link) :
    PollOutcome s todo (.ended s.ending, s')
  | bytes {s' : Socket} (n : ℕ) (h_pos : 0 < n) (h_le : n ≤ todo) (h_delivers : s.link.Delivers n)
    (h_link : s'.link = s.link.skip n) : PollOutcome s todo (.bytes (s.link.ahead n), s')

theorem poll_outcome {todo : ℕ} (h_todo : 0 < todo) : PollOutcome s todo (s.poll todo) := by
  unfold poll
  dsimp only
  split
  · next h_poll => exact .timeout h_poll rfl
  · next k h_poll =>
    split
    · next h_left => exact .ended h_left rfl
    · next h_left =>
      -- as many bytes as are asked for and left, one at least
      refine .bytes (min todo (min (k + 1) (s.left.getD todo))) ?_ (Nat.min_le_left _ _) ?_ ?_
      · cases h : s.left with
        | none => simp [h_todo]
        | some left =>
          have h_pos : left ≠ 0 := fun h_zero => h_left (by rw [h, h_zero])
          rw [Option.getD_some]
          omega
      · rw [delivers_link]
        intro left h
        rw [h, Option.getD_some]
        omega
      · unfold link Link.skip
        cases h : s.left with
        | none => rfl
        | some left =>
          simp only [Option.map_some, Option.getD_some, Link.mk.injEq, Option.some.injEq, true_and,
            and_true]
          omega

/-- What is behind an ended connection. -/
theorem recv_link_of_ended {todo : ℕ} (h_todo : 0 < todo) (h_left : s.left = some 0) :
    s.link.recv todo = (none, s.link) := by
  have h_not : ¬ s.link.Delivers todo := by
    rw [delivers_link]
    intro h
    exact absurd (h 0 h_left) (by omega)
  have h_pos : max s.link.pos (s.link.eof.getD 0) = s.link.pos := by
    unfold link
    rw [h_left]
    simp
  rw [Link.recv, if_neg h_not, h_pos]

/-- `recv` in two parts: bytes that are there, and then the rest. It ends at the
same place, or with the end of the connection. -/
theorem recv_link_of_bytes {l : Link} {n todo : ℕ} (h_le : n ≤ todo) (h_delivers : l.Delivers n) :
    l.recv todo = (((l.skip n).recv (todo - n)).1.map (l.ahead n ++ ·),
      ((l.skip n).recv (todo - n)).2) := by
  obtain ⟨k, rfl⟩ := Nat.exists_eq_add_of_le h_le
  rw [Nat.add_sub_cancel_left]
  by_cases h : l.Delivers (n + k)
  · rw [Link.recv_of_delivers h, Link.recv_of_delivers (Link.delivers_skip.mpr h), Link.ahead_add,
      Link.skip_skip]
    rfl
  · have h_rest : ¬ (l.skip n).Delivers k := mt Link.delivers_skip.mp h
    obtain ⟨e, h_eof, -⟩ := Link.exists_eof_of_not_delivers h
    -- both leave the connection at its end
    have h_end : l.pos + n ≤ e := h_delivers e h_eof
    rw [Link.recv, Link.recv, if_neg h, if_neg h_rest]
    unfold Link.skip
    rw [h_eof, Option.getD_some, max_eq_right h_end, max_eq_right (by omega)]
    rfl

theorem poll_polls (todo : ℕ) :
    (s.poll todo).2.polls = s.polls ∧ (s.poll todo).2.call = s.call + 1 := by
  unfold poll
  dsimp only
  split
  · exact ⟨rfl, rfl⟩
  · split <;> exact ⟨rfl, rfl⟩

/-! ### One call -/

/-- **The loop**: what is received is what the connection delivers. The
induction is on the turns, each of which takes one part off the connection. -/
theorem recvLoop_spec {turns todo : ℕ} {got : Bytes} {r : Option Bytes} {s' : Socket}
    (h : s.recvLoop turns todo got = some (r, s')) :
    r = (s.link.recv todo).1.map (got ++ ·) ∧ s'.link = (s.link.recv todo).2 := by
  induction turns generalizing s todo got with
  | zero => cases h
  | succ turns ih =>
    rw [recvLoop] at h
    split at h
    · next h_zero =>
      obtain ⟨rfl, rfl⟩ := Prod.mk.inj (Option.some.inj h)
      subst h_zero
      have h_none : s.link.Delivers 0 := delivers_link.mpr fun _ _ => Nat.zero_le _
      rw [Link.recv_of_delivers h_none]
      exact ⟨congrArg some (List.append_nil got).symm, rfl⟩
    · next h_todo =>
      have h_outcome := poll_outcome (s := s) (Nat.pos_of_ne_zero h_todo)
      generalize s.poll todo = res at h h_outcome
      cases h_outcome with
      | timeout h_poll h_link =>
        rw [← h_link]
        exact ih h
      | ended h_left h_link =>
        obtain ⟨rfl, rfl⟩ := Prod.mk.inj (Option.some.inj h)
        rw [recv_link_of_ended (Nat.pos_of_ne_zero h_todo) h_left]
        exact ⟨rfl, h_link⟩
      | bytes n h_pos h_le h_delivers h_link =>
        -- the rest is received from the connection `n` bytes on
        obtain ⟨h_r, h_s⟩ := ih h
        rw [Link.length_ahead, h_link] at h_r h_s
        rw [recv_link_of_bytes h_le h_delivers]
        refine ⟨?_, h_s⟩
        rw [h_r, Option.map_map]
        congr 1
        funext bytes
        exact List.append_assoc _ _ _

/-- More turns change nothing once the loop has come to its end. By induction on
the turns. -/
theorem recvLoop_mono {turns turns' todo : ℕ} {got : Bytes} {res : Option Bytes × Socket}
    (h : s.recvLoop turns todo got = some res) (h_le : turns ≤ turns') :
    s.recvLoop turns' todo got = some res := by
  induction turns generalizing s todo got turns' with
  | zero => cases h
  | succ turns ih =>
    obtain ⟨more, rfl⟩ := Nat.exists_eq_add_of_le' h_le
    rw [recvLoop] at h
    rw [show more + (turns + 1) = more + turns + 1 from rfl, recvLoop]
    split at h
    · next h_zero => rw [if_pos h_zero, h]
    · next h_todo =>
      rw [if_neg h_todo]
      split at h
      · next s' h_poll => exact ih h (by omega)
      · next why s' h_poll => exact h
      · next data s' h_poll => exact ih h (by omega)

/-- **It returns**, when `poll` finds something again and again. The induction
is on the bytes that are left to do, and within it on the time-outs before the
next ones. -/
theorem recvLoop_returns (h_polls : ∀ m, ∃ t, m ≤ t ∧ s.polls t ≠ none) (todo : ℕ) (got : Bytes) :
    ∃ turns res, s.recvLoop turns todo got = some res := by
  induction todo using Nat.strong_induction_on generalizing s got with
  | _ todo ih =>
    by_cases h_todo : todo = 0
    · exact ⟨1, _, by rw [recvLoop, if_pos h_todo]⟩
    -- one turn, when what is behind a time-out returns
    have h_turn {s : Socket} (h_polls : ∀ m, ∃ t, m ≤ t ∧ s.polls t ≠ none)
        (h_timeout : ∀ s', s.poll todo = (.timeout, s') →
          ∃ turns res, s'.recvLoop turns todo got = some res) :
        ∃ turns res, s.recvLoop turns todo got = some res := by
      have h_outcome := poll_outcome (s := s) (Nat.pos_of_ne_zero h_todo)
      obtain ⟨h_same, -⟩ := poll_polls (s := s) todo
      cases h_poll : s.poll todo with
      | mk met s' =>
        rw [h_poll] at h_outcome h_same
        cases h_outcome with
        | timeout h_none h_link =>
          obtain ⟨turns, res, h_run⟩ := h_timeout s' h_poll
          refine ⟨turns + 1, res, ?_⟩
          rw [recvLoop, if_neg h_todo, h_poll]
          exact h_run
        | ended h_left h_link => exact ⟨1, _, by rw [recvLoop, if_neg h_todo, h_poll]⟩
        | bytes n h_pos h_le h_delivers h_link =>
          obtain ⟨turns, res, h_run⟩ := ih (todo - n) (by omega) (s := s')
            (by rw [h_same]; exact h_polls) (got ++ s.link.ahead n)
          refine ⟨turns + 1, res, ?_⟩
          rw [recvLoop, if_neg h_todo, h_poll]
          dsimp only
          rw [Link.length_ahead]
          exact h_run
    obtain ⟨t, h_le, h_some⟩ := h_polls s.call
    obtain ⟨wait, rfl⟩ := Nat.exists_eq_add_of_le h_le
    clear h_le
    induction wait generalizing s with
    | zero =>
      refine h_turn h_polls fun s' h_poll => ?_
      have h_outcome := poll_outcome (s := s) (Nat.pos_of_ne_zero h_todo)
      rw [h_poll] at h_outcome
      cases h_outcome with
      | timeout h_none h_link => exact absurd h_none h_some
    | succ wait ih_wait =>
      refine h_turn h_polls fun s' h_poll => ?_
      obtain ⟨h_same, h_call⟩ := poll_polls (s := s) todo
      rw [h_poll] at h_same h_call
      refine ih_wait (by rw [h_same]; exact h_polls) ?_
      rw [h_same, h_call, Nat.add_assoc, Nat.add_comm 1]
      exact h_some

theorem recvLoop_polls {turns todo : ℕ} {got : Bytes} {res : Option Bytes × Socket}
    (h : s.recvLoop turns todo got = some res) : res.2.polls = s.polls := by
  induction turns generalizing s todo got with
  | zero => cases h
  | succ turns ih =>
    -- whatever a poll gives, it leaves the others as they are
    have h_same := (poll_polls (s := s) todo).1
    rw [recvLoop] at h
    split at h
    · rw [← Option.some.inj h]
    · split at h
      · next s' h_poll =>
        rw [h_poll] at h_same
        exact (ih h).trans h_same
      · next why s' h_poll =>
        rw [h_poll] at h_same
        rw [← Option.some.inj h]
        exact h_same
      · next data s' h_poll =>
        rw [h_poll] at h_same
        exact (ih h).trans h_same

end Socket

/-! ### A sequence of calls -/

/-- So many calls of `recv`. How much each of them asks for is up to what has
been received, as in `receive_pdu`. -/
def Socket.recvs (turns : ℕ) (asks : List (Option Bytes) → ℕ) :
    ℕ → List (Option Bytes) → Socket → Option (List (Option Bytes) × Socket)
  | 0, received, s => some (received, s)
  | calls + 1, received, s =>
    match s.recv turns (asks received) with
    | none => none
    | some (r, s') => recvs turns asks calls (received ++ [r]) s'

/-- The same calls on a connection, each for a number of bytes that may depend
on what the earlier ones returned. -/
def Link.recvs (asks : List (Option Bytes) → ℕ) :
    ℕ → List (Option Bytes) → Link → List (Option Bytes) × Link
  | 0, received, l => (received, l)
  | calls + 1, received, l =>
    recvs asks calls (received ++ [(l.recv (asks received)).1]) (l.recv (asks received)).2

namespace Socket

variable {s : Socket}

theorem recv_spec {turns n : ℕ} {r : Option Bytes} {s' : Socket}
    (h : s.recv turns n = some (r, s')) : s.link.recv n = (r, s'.link) := by
  obtain ⟨h_r, h_s⟩ := recvLoop_spec h
  rw [h_s, h_r]
  simp

theorem recvs_eq {asks : List (Option Bytes) → ℕ} {turns calls : ℕ}
    {received received' : List (Option Bytes)} {s' : Socket}
    (h : s.recvs turns asks calls received = some (received', s')) :
    s.link.recvs asks calls received = (received', s'.link) := by
  induction calls generalizing s received with
  | zero =>
    obtain ⟨rfl, rfl⟩ := Prod.mk.inj (Option.some.inj h)
    rfl
  | succ calls ih =>
    rw [recvs] at h
    split at h
    · cases h
    · next r s₁ h_recv =>
      rw [Link.recvs, recv_spec h_recv]
      exact ih h

theorem recvs_mono {asks : List (Option Bytes) → ℕ} {turns turns' calls : ℕ}
    {received : List (Option Bytes)} {res : List (Option Bytes) × Socket} (h_le : turns ≤ turns')
    (h : s.recvs turns asks calls received = some res) :
    s.recvs turns' asks calls received = some res := by
  induction calls generalizing s received with
  | zero => exact h
  | succ calls ih =>
    rw [recvs] at h ⊢
    split at h
    · cases h
    · next r s₁ h_recv =>
      have h_more : s.recv turns' (asks received) = some (r, s₁) := recvLoop_mono h_recv h_le
      rw [h_more]
      exact ih h

theorem recvs_returns (h_polls : ∀ m, ∃ t, m ≤ t ∧ s.polls t ≠ none)
    (asks : List (Option Bytes) → ℕ) (calls : ℕ) (received : List (Option Bytes)) :
    ∃ turns res, s.recvs turns asks calls received = some res := by
  induction calls generalizing s received with
  | zero => exact ⟨0, _, rfl⟩
  | succ calls ih =>
    obtain ⟨turns, ⟨r, s₁⟩, h_run⟩ := recvLoop_returns h_polls (asks received) []
    have h_same : s₁.polls = s.polls := recvLoop_polls h_run
    obtain ⟨turns', res, h_rest⟩ := ih (s := s₁) (by rw [h_same]; exact h_polls) (received ++ [r])
    refine ⟨max turns turns', res, ?_⟩
    have h_more : s.recv (max turns turns') (asks received) = some (r, s₁) :=
      recvLoop_mono h_run (le_max_left _ _)
    rw [recvs, h_more]
    exact recvs_mono (le_max_right _ _) h_rest

/-- **A socket is what its connection is.** However its bytes arrive and however
it ends, calls of `recv` return what they return on the connection; and they
return, if `poll` finds something again and again. -/
theorem recvs_refines (s : Socket) (asks : List (Option Bytes) → ℕ) (calls : ℕ)
    (received : List (Option Bytes)) :
    (∀ turns received' s', s.recvs turns asks calls received = some (received', s') →
      s.link.recvs asks calls received = (received', s'.link)) ∧
    ((∀ m, ∃ t, m ≤ t ∧ s.polls t ≠ none) →
      ∃ turns, ∀ turns', turns ≤ turns' → ∃ s',
        s.recvs turns' asks calls received = some ((s.link.recvs asks calls received).1, s')) := by
  refine ⟨fun _ _ _ h => recvs_eq h, fun h_polls => ?_⟩
  obtain ⟨turns, ⟨received', s'⟩, h_run⟩ := recvs_returns h_polls asks calls received
  refine ⟨turns, fun turns' h_le => ⟨s', ?_⟩⟩
  rw [recvs_mono h_le h_run, recvs_eq h_run]

end Socket

end IscsiTarget
