import IscsiTarget.Model.NbdSocket
import IscsiTarget.Storage.Pairing

/-!
# Reconnecting to the NBD server

`invoke_nbd` repeats a request on a new connection until it has been answered. What the server has
received of it when a connection is lost is known at every moment (`Progress`): a part of the
request, which the server does not execute, or the whole of it, which it answers. So a turn of the
loop ends in one of three ways (`TurnEnds`), and over all turns the server has answered nothing but
this request, in the end with the reply that `invoke_nbd` returns by (`invokeLoop_spec`). Writing
the same bytes again changes nothing, and a buffer that was filled in part is filled from the
start.
-/

namespace IscsiTarget

/-! ### Buffers -/

theorem poke_zero (bytes data : Bytes) : poke 0 bytes data = bytes ++ data.drop bytes.length := by
  unfold poke
  rw [List.take_zero, List.nil_append, Nat.zero_add]

/-- The buffer is filled from the start again. -/
theorem poke_poke {a b : Bytes} (h : a.length ≤ b.length) (data : Bytes) :
    poke 0 b (poke 0 a data) = poke 0 b data := by
  have h_drop : (a ++ data.drop a.length).drop b.length = data.drop b.length := by
    rw [List.drop_append, List.drop_eq_nil_of_le h, List.nil_append, List.drop_drop,
      Nat.add_sub_cancel' h]
  rw [poke_zero, poke_zero, poke_zero, h_drop]

/-! ### What the server has answered -/

/-- From `before` to `after` the server has answered `new`, which are all this
request. How often it was repeated is the length of `new`; what it did is the
fold over them. -/
structure Repeats (r : NbdRequest) (payload : Bytes) (before after : NbdServer)
    (new : List NbdAnswer) : Prop where
  answers : after.answers = before.answers ++ new
  own : ∀ a ∈ new, a.request = r ∧ a.payload = payload
  contents : after.contents = new.foldl (fun contents a => a.execute contents) before.contents

namespace Repeats

variable {r : NbdRequest} {payload : Bytes} {s₁ s₂ s₃ : NbdServer} {new new' : List NbdAnswer}

theorem refl (r : NbdRequest) (payload : Bytes) (s : NbdServer) : Repeats r payload s s [] where
  answers := (List.append_nil _).symm
  own := List.forall_mem_nil _
  contents := rfl

theorem trans (h : Repeats r payload s₁ s₂ new) (h' : Repeats r payload s₂ s₃ new') :
    Repeats r payload s₁ s₃ (new ++ new') where
  answers := by rw [h'.answers, h.answers, List.append_assoc]
  own := by
    intro a h_mem
    rcases List.mem_append.mp h_mem with h_new | h_new
    · exact h.own a h_new
    · exact h'.own a h_new
  contents := by rw [h'.contents, h.contents, List.foldl_append]

/-- The next answer of the server. -/
theorem answered (env : NbdEnv) (r : NbdRequest) (payload : Bytes) (s : NbdServer) :
    ∃ a, a.error = (env.answer s.answers.length).1 ∧
      Repeats r payload s (s.answered env r payload) [a] :=
  ⟨_, rfl, rfl, List.forall_mem_singleton.mpr ⟨rfl, rfl⟩, rfl⟩

/-- A request that is no write and no trim changes nothing, however often it is
answered. By induction on the answers. -/
theorem contents_eq (h : Repeats r payload s₁ s₂ new) (h_write : r.type ≠ nbdCmdWrite)
    (h_trim : r.type ≠ nbdCmdTrim) : s₂.contents = s₁.contents := by
  have h_own := h.own
  rw [h.contents]
  generalize s₁.contents = contents
  -- every answer is to this request, so none of those folded over stores or trims
  clear h
  induction new generalizing contents with
  | nil => rfl
  | cons a new ih =>
    rw [List.forall_mem_cons] at h_own
    have h_execute : a.execute contents = contents := by
      unfold NbdAnswer.execute
      rw [h_own.1.1]
      by_cases h_error : a.error = 0
      · rw [if_neg (not_not.mpr h_error), if_neg h_write, if_neg fun h_both => h_trim h_both.1]
      · rw [if_pos h_error]
    rw [List.foldl_cons, h_execute]
    exact ih h_own.2 contents

/-- A write that is executed again stores what is there. So it does not matter
how often the server had executed it before the reply got through at last. -/
theorem contents_of_write {a : NbdAnswer} (h : Repeats r payload s₁ s₂ (new ++ [a]))
    (h_write : r.type = nbdCmdWrite) (h_last : a.error = 0) :
    s₂.contents = s₁.contents.store r.offset payload := by
  -- so far it has been executed, or not
  have h_either : ∀ contents : Medium UInt8, ∀ as : List NbdAnswer,
      (∀ a ∈ as, a.request = r ∧ a.payload = payload) →
      (as.foldl (fun contents a => a.execute contents) contents).store r.offset payload =
        contents.store r.offset payload := by
    intro contents as h_own
    induction as generalizing contents with
    | nil => rfl
    | cons b as ih =>
      rw [List.forall_mem_cons] at h_own
      rw [List.foldl_cons, ih _ h_own.2]
      unfold NbdAnswer.execute
      rw [h_own.1.1, h_own.1.2]
      by_cases h_error : b.error = 0
      · rw [if_neg (not_not.mpr h_error), if_pos h_write, Medium.store_store]
      · rw [if_pos h_error]
  -- the last one has been executed, whatever those before it have left
  have h_own := h.own a (List.mem_append_right _ (List.mem_singleton_self a))
  have h_execute : ∀ contents, a.execute contents = contents.store r.offset payload := by
    intro contents
    unfold NbdAnswer.execute
    rw [h_own.1, h_own.2, if_neg (not_not.mpr h_last), if_pos h_write]
  rw [h.contents, List.foldl_append, List.foldl_cons, List.foldl_nil, h_execute]
  exact h_either _ _ fun b h_mem => h.own b (List.mem_append_left _ h_mem)

end Repeats

/-! ### The server at the other end -/

section Exchange

variable {env : NbdEnv} {r : NbdRequest} {payload : Bytes}

/-- A request that is not complete is not answered. The server waits for the
rest of it, and its state is as it was. -/
theorem serve_of_incomplete {s : NbdServer} {socket : NbdSocket} {todo : Bytes} (h_valid : r.Valid)
    (h_payload : payload.length = r.payloadLength)
    (h_received : socket.received ++ todo = r.encode ++ payload) (h_todo : todo ≠ []) :
    s.serve env socket = (s, socket) := by
  have h_len := congrArg List.length h_received
  have h_pos := List.length_pos_iff.mpr h_todo
  rw [List.length_append, List.length_append, r.length_encode] at h_len
  unfold NbdServer.serve
  by_cases h_short : socket.received.length < 28
  · -- not even the header is there
    have h_decode : NbdRequest.decode (socket.received.take 28) = none := by
      unfold NbdRequest.decode
      rw [if_neg]
      rintro ⟨h_length, -⟩
      rw [List.length_take] at h_length
      omega
    rw [h_decode]
  · have h_header : socket.received.take 28 = r.encode := by
      have h_take := congrArg (List.take 28) h_received
      rw [List.take_append_of_le_length (not_lt.mp h_short), List.take_left' r.length_encode]
        at h_take
      exact h_take
    rw [h_header, NbdRequest.decode_encode h_valid]
    dsimp only
    rw [if_pos (by omega)]

/-- A complete one is answered, and the server has the request behind it. -/
theorem serve_of_complete {s : NbdServer} {socket : NbdSocket} (h_valid : r.Valid)
    (h_payload : payload.length = r.payloadLength)
    (h_received : socket.received = r.encode ++ payload) :
    s.serve env socket = (s.answered env r payload,
      { socket with
        received := []
        replies := socket.replies ++ r.reply (env.answer s.answers.length).1
          (s.answered env r payload).contents }) := by
  -- nothing is left over, as the client sends the next request only after the reply
  have h_rest : (r.encode ++ payload).drop 28 = payload := List.drop_left' r.length_encode
  unfold NbdServer.serve
  rw [h_received, List.take_left' r.length_encode, NbdRequest.decode_encode h_valid]
  dsimp only
  rw [if_neg (by rw [List.length_append, r.length_encode, h_payload]; omega), h_rest,
    List.take_of_length_le h_payload.le, ← List.drop_drop, h_rest,
    List.drop_of_length_le h_payload.le]

variable (env r payload) in
/-- Where an exchange is when `todo` is not written yet: the server has the rest
of the request, or nothing more reaches it, or it has answered. -/
inductive Progress (before : NbdServer) : NbdWorld → Bytes → Prop
  | sending {w : NbdWorld} {todo : Bytes} (socket : NbdSocket) (h_fd : w.fd = some socket)
      (h_received : socket.received ++ todo = r.encode ++ payload) (h_todo : todo ≠ [])
      (h_replies : socket.replies = []) (h_server : w.server = before) : Progress before w todo
  | lost {w : NbdWorld} {todo : Bytes} (socket : NbdSocket) (h_fd : w.fd = some socket)
      (h_lost : socket.upLeft = some 0) (h_replies : socket.replies = [])
      (h_server : w.server = before) : Progress before w todo
  | answered {w : NbdWorld} (socket : NbdSocket) (h_fd : w.fd = some socket)
      (h_received : socket.received = [])
      (h_replies : socket.replies = r.reply (env.answer before.answers.length).1
        (before.answered env r payload).contents)
      (h_server : w.server = before.answered env r payload) : Progress before w []

variable {before : NbdServer}

/-- More of the request reaches the server. It answers as soon as the last byte
is there, and not before. -/
theorem Progress.deliver {w : NbdWorld} {socket : NbdSocket} {bytes rest : Bytes}
    (h_valid : r.Valid) (h_payload : payload.length = r.payloadLength)
    (h_received : socket.received ++ (bytes ++ rest) = r.encode ++ payload)
    (h_replies : socket.replies = []) (h_server : w.server = before) (upLeft : Option ℕ) :
    Progress env r payload before (w.deliver env socket upLeft bytes) rest := by
  subst h_server
  unfold NbdWorld.deliver
  dsimp only
  by_cases h_rest : rest = []
  · -- that was the last part, so `NbdServer.serve` answers
    subst h_rest
    rw [List.append_nil] at h_received
    rw [@serve_of_complete env r payload w.server
      { socket with received := socket.received ++ bytes, upLeft := upLeft } h_valid h_payload
      h_received]
    exact .answered _ rfl rfl (by rw [h_replies]; rfl) rfl
  · -- something is still missing
    rw [← List.append_assoc] at h_received
    rw [@serve_of_incomplete env r payload w.server
      { socket with received := socket.received ++ bytes, upLeft := upLeft } rest h_valid h_payload
      h_received h_rest]
    exact .sending _ rfl h_received h_rest h_replies rfl

theorem moved_pos {w : NbdWorld} {n : ℕ} (h : 0 < n) : 0 < w.moved env n := by
  unfold NbdWorld.moved
  omega

/-- One `write` of a part of the request. It fails when nothing of it was taken,
and then the server has not answered; otherwise `k` bytes less are to be
written. -/
theorem Progress.write {w w' : NbdWorld} {bytes rest : Bytes} {rc : Option ℕ} (h_valid : r.Valid)
    (h_payload : payload.length = r.payloadLength)
    (h : Progress env r payload before w (bytes ++ rest)) (h_bytes : bytes ≠ [])
    (h_write : w.write env bytes = (rc, w')) :
    (rc = none ∧ w'.server = before) ∨
      ∃ k, rc = some k ∧ 0 < k ∧ Progress env r payload before w' (bytes.drop k ++ rest) := by
  have h_pos : 0 < w.moved env bytes.length := moved_pos (List.length_pos_iff.mpr h_bytes)
  generalize h_todo : bytes ++ rest = todo at h
  unfold NbdWorld.write at h_write
  cases h with
  | sending socket h_fd h_received _ h_replies h_server =>
    -- how much the socket takes is up to the environment; what it takes the server has
    subst h_todo
    have h_cut : ∀ k, socket.received ++ (bytes.take k ++ (bytes.drop k ++ rest)) =
        r.encode ++ payload := by
      intro k
      rw [← List.append_assoc (bytes.take k), List.take_append_drop, h_received]
    rw [h_fd] at h_write
    dsimp only at h_write
    -- by what the connection still lets through: all, nothing, or the bytes up to where it is lost
    split at h_write
    · -- the connection holds
      cases h_write
      exact .inr ⟨_, rfl, h_pos, .deliver (w := { w with fd := some socket, call := w.call + 1 })
        h_valid h_payload (h_cut _) h_replies h_server _⟩
    · next h_lost =>
      split at h_write
      · cases h_write
        exact .inl ⟨rfl, h_server⟩
      · next h_unsent =>
        cases h_write
        exact .inr ⟨_, rfl, by omega, .lost _ rfl h_lost h_replies h_server⟩
    · cases h_write
      exact .inr ⟨_, rfl, by omega,
        .deliver (w := { w with fd := some socket, call := w.call + 1 }) h_valid h_payload (h_cut _)
          h_replies h_server _⟩
  | lost socket h_fd h_lost h_replies h_server =>
    -- a lost connection takes bytes until its buffer is full, and the server sees none of them
    rw [h_fd] at h_write
    dsimp only at h_write
    rw [h_lost] at h_write
    dsimp only at h_write
    split at h_write
    · cases h_write
      exact .inl ⟨rfl, h_server⟩
    · next h_unsent =>
      cases h_write
      exact .inr ⟨_, rfl, by omega, .lost _ rfl rfl h_replies h_server⟩
  | answered socket h_fd h_received h_replies h_server =>
    -- the server answers only what is complete, and there is a byte left to write
    exact absurd (List.append_eq_nil_iff.mp h_todo).1 h_bytes

/-- `WRITE` of a part of the request: when it fails, the server has not
answered. By induction on the turns, each of which delivers some of the bytes. -/
theorem Progress.writeLoop {turns : ℕ} {w w' : NbdWorld} {bytes rest : Bytes} {ok : Bool}
    (h_valid : r.Valid) (h_payload : payload.length = r.payloadLength)
    (h_turns : bytes.length ≤ turns) (h : Progress env r payload before w (bytes ++ rest))
    (h_run : w.writeLoop env turns bytes = (ok, w')) :
    (ok = false ∧ w'.server = before) ∨ (ok = true ∧ Progress env r payload before w' rest) := by
  induction turns generalizing w bytes with
  | zero =>
    -- a turn writes at least one byte, so the turns do not run out first
    have h_nil : bytes = [] := List.length_eq_zero_iff.mp (Nat.le_zero.mp h_turns)
    subst h_nil
    cases h_run
    exact .inr ⟨rfl, h⟩
  | succ turns ih =>
    rw [NbdWorld.writeLoop] at h_run
    by_cases h_bytes : bytes = []
    · rw [if_pos h_bytes] at h_run
      cases h_run
      subst h_bytes
      exact .inr ⟨rfl, h⟩
    · rw [if_neg h_bytes] at h_run
      cases h_write : w.write env bytes with
      | mk rc w₁ =>
        rw [h_write] at h_run
        rcases h.write h_valid h_payload h_bytes h_write with
          ⟨rfl, h_server⟩ | ⟨k, rfl, h_k, h_next⟩
        · cases h_run
          exact .inl ⟨rfl, h_server⟩
        · refine ih ?_ h_next h_run
          -- the rest is shorter by what was written
          rw [List.length_drop]
          omega

/-! ### Reading -/

/-- `j` bytes of what the server has sent have been read. -/
structure ReadOff (socket : NbdSocket) (w w' : NbdWorld) (j : ℕ) : Prop where
  server : w'.server = w.server
  fd : ∃ socket', w'.fd = some socket' ∧ socket'.received = socket.received ∧
    socket'.replies = socket.replies.drop j

/-- One `read`: it fails and takes nothing, or it takes some of what the server
has sent, from the front. -/
theorem read_spec {w w' : NbdWorld} {socket : NbdSocket} {len : ℕ} {rc : Option Bytes}
    (h_fd : w.fd = some socket) (h_len : 0 < len) (h_read : w.read env len = (rc, w')) :
    (rc = none ∧ ReadOff socket w w' 0) ∨
      ∃ k, 0 < k ∧ k ≤ len ∧ k ≤ socket.replies.length ∧ rc = some (socket.replies.take k) ∧
        ReadOff socket w w' k := by
  unfold NbdWorld.read at h_read
  rw [h_fd] at h_read
  dsimp only at h_read
  -- what has arrived is the front of what the server has sent
  have h_front : socket.arriving <+: socket.replies := by
    unfold NbdSocket.arriving
    split
    · exact List.prefix_rfl
    · exact List.take_prefix _ _
  split at h_read
  · -- end of file, or the connection is lost
    cases h_read
    exact .inl ⟨rfl, rfl, socket, rfl, rfl, rfl⟩
  · next h_some =>
    cases h_read
    have h_got : (socket.arriving.take (w.moved env len)).length =
        min (w.moved env len) socket.arriving.length := List.length_take
    have h_moved : w.moved env len ≤ len := Nat.min_le_left _ _
    have h_pos : 0 < w.moved env len := moved_pos h_len
    have h_arriving_pos := List.length_pos_iff.mpr h_some
    have h_all : socket.arriving.take (w.moved env len) <+: socket.replies :=
      (List.take_prefix _ _).trans h_front
    exact .inr ⟨_, by omega, by omega, h_all.length_le,
      congrArg some (List.prefix_iff_eq_take.mp h_all), rfl, _, rfl, rfl, rfl⟩

/-- `READ`: it fails, or it has read everything. Either way what it has read is
the front of what the server has sent, and the rest is still on the connection. -/
theorem readLoop_spec {turns len : ℕ} {w w' : NbdWorld} {socket : NbdSocket} {got got' : Bytes}
    {ok : Bool} (h_fd : w.fd = some socket) (h_turns : len ≤ turns)
    (h_run : w.readLoop env turns len got = (ok, got', w')) :
    ∃ j, j ≤ len ∧ j ≤ socket.replies.length ∧ got' = got ++ socket.replies.take j ∧
      ReadOff socket w w' j ∧ (ok = true → j = len) := by
  induction turns generalizing w socket len got with
  | zero =>
    -- the turns cannot run out first, as in `writeLoop`
    cases h_run
    exact ⟨0, Nat.zero_le _, Nat.zero_le _, (List.append_nil _).symm, ⟨rfl, socket, h_fd, rfl, rfl⟩,
      fun _ => by omega⟩
  | succ turns ih =>
    rw [NbdWorld.readLoop] at h_run
    by_cases h_len : len = 0
    · rw [if_pos h_len] at h_run
      cases h_run
      exact ⟨0, Nat.zero_le _, Nat.zero_le _, (List.append_nil _).symm,
        ⟨rfl, socket, h_fd, rfl, rfl⟩, fun _ => h_len.symm⟩
    · rw [if_neg h_len] at h_run
      -- what this `read` gave comes before what the other turns read
      cases h_read : w.read env len with
      | mk rc w₁ =>
        rw [h_read] at h_run
        rcases read_spec h_fd (Nat.pos_of_ne_zero h_len) h_read with
          ⟨rfl, h_off⟩ | ⟨k, h_k, h_le, h_replies, rfl, h_off⟩
        · cases h_run
          exact ⟨0, Nat.zero_le _, Nat.zero_le _, (List.append_nil _).symm, h_off,
            fun h => by cases h⟩
        · obtain ⟨socket₁, h_fd₁, h_received₁, h_replies₁⟩ := h_off.fd
          have h_length : (socket.replies.take k).length = k := List.length_take_of_le h_replies
          dsimp only at h_run
          rw [h_length] at h_run
          obtain ⟨j, h_j, h_j', h_got, h_off', h_ok⟩ := ih h_fd₁ (by omega) h_run
          obtain ⟨socket₂, h_fd₂, h_received₂, h_replies₂⟩ := h_off'.fd
          rw [h_replies₁, List.length_drop] at h_j'
          refine ⟨k + j, by omega, by omega, ?_, ⟨h_off'.server.trans h_off.server, socket₂, h_fd₂,
            h_received₂.trans h_received₁, ?_⟩, fun h => by have := h_ok h; omega⟩
          · rw [h_got, h_replies₁, List.append_assoc, List.take_add]
          · rw [h_replies₂, h_replies₁, List.drop_drop]

/-! ### Connections that are not lost -/

/-- There is a connection, and it is not lost. -/
def NbdWorld.Kept (w : NbdWorld) : Prop :=
  ∃ socket, w.fd = some socket ∧ socket.upLeft = none ∧ socket.downLeft = none

theorem NbdWorld.Kept.of_fd {w : NbdWorld} {socket : NbdSocket} (h : w.Kept)
    (h_fd : w.fd = some socket) : socket.upLeft = none ∧ socket.downLeft = none := by
  obtain ⟨socket', h_fd', h_left⟩ := h
  rw [h_fd', Option.some_inj] at h_fd
  exact h_fd ▸ h_left

theorem serve_left (s : NbdServer) (socket : NbdSocket) :
    (s.serve env socket).2.upLeft = socket.upLeft ∧
      (s.serve env socket).2.downLeft = socket.downLeft := by
  unfold NbdServer.serve
  split
  · exact ⟨rfl, rfl⟩
  · split <;> exact ⟨rfl, rfl⟩

theorem write_kept {w w' : NbdWorld} {bytes : Bytes} {rc : Option ℕ} (h : w.Kept)
    (h_write : w.write env bytes = (rc, w')) : rc ≠ none ∧ w'.Kept := by
  obtain ⟨socket, h_fd, h_up, h_down⟩ := h
  unfold NbdWorld.write at h_write
  rw [h_fd] at h_write
  dsimp only at h_write
  rw [h_up] at h_write
  cases h_write
  refine ⟨Option.some_ne_none _, _, rfl, ?_⟩
  -- what the server does with the bytes does not change how much still arrives
  obtain ⟨h_up', h_down'⟩ := @serve_left env w.server { socket with
    received := socket.received ++ bytes.take (w.moved env bytes.length), upLeft := none }
  exact ⟨h_up', h_down'.trans h_down⟩

/-- `WRITE` does not fail, as long as the connection is kept. By induction on
the turns. -/
theorem writeLoop_kept {turns : ℕ} {w w' : NbdWorld} {bytes : Bytes} {ok : Bool} (h : w.Kept)
    (h_run : w.writeLoop env turns bytes = (ok, w')) : ok = true ∧ w'.Kept := by
  -- on the turns that are left: each `write` keeps the connection
  induction turns generalizing w bytes with
  | zero =>
    cases h_run
    exact ⟨rfl, h⟩
  | succ turns ih =>
    rw [NbdWorld.writeLoop] at h_run
    split at h_run
    · cases h_run
      exact ⟨rfl, h⟩
    · cases h_write : w.write env bytes with | mk rc w₁ =>
      obtain ⟨h_rc, h_kept⟩ := write_kept h h_write
      obtain ⟨k, rfl⟩ := Option.ne_none_iff_exists'.mp h_rc
      rw [h_write] at h_run
      exact ih h_kept h_run

theorem read_kept {w w' : NbdWorld} {socket : NbdSocket} {len : ℕ} {rc : Option Bytes}
    (h : w.Kept) (h_fd : w.fd = some socket) (h_replies : socket.replies ≠ [])
    (h_read : w.read env len = (rc, w')) : rc ≠ none ∧ w'.Kept := by
  obtain ⟨h_up, h_down⟩ := h.of_fd h_fd
  have h_arriving : socket.arriving = socket.replies := by
    unfold NbdSocket.arriving
    rw [h_down]
  unfold NbdWorld.read at h_read
  rw [h_fd] at h_read
  dsimp only at h_read
  -- there is something to read, so this is not the end of the stream
  rw [if_neg (h_arriving ▸ h_replies)] at h_read
  cases h_read
  exact ⟨Option.some_ne_none _, _, rfl, h_up, by rw [h_down]; rfl⟩

/-- `READ` of what the server has sent does not fail, as long as the connection
is kept and no more is asked for. By induction on the turns. -/
theorem readLoop_kept {turns len : ℕ} {w w' : NbdWorld} {socket : NbdSocket} {got got' : Bytes}
    {ok : Bool} (h : w.Kept) (h_fd : w.fd = some socket) (h_len : len ≤ socket.replies.length)
    (h_run : w.readLoop env turns len got = (ok, got', w')) : ok = true ∧ w'.Kept := by
  induction turns generalizing w socket len got with
  | zero =>
    cases h_run
    exact ⟨rfl, h⟩
  | succ turns ih =>
    rw [NbdWorld.readLoop] at h_run
    split at h_run
    · cases h_run
      exact ⟨rfl, h⟩
    · next h_ne =>
      cases h_read : w.read env len with | mk rc w₁ =>
      -- the server has sent more than was read so far, so there is something to read
      have h_some : socket.replies ≠ [] := by
        intro h_nil
        rw [h_nil] at h_len
        exact h_ne (Nat.le_zero.mp h_len)
      obtain ⟨h_rc, h_kept⟩ := read_kept h h_fd h_some h_read
      rw [h_read] at h_run
      rcases read_spec h_fd (Nat.pos_of_ne_zero h_ne) h_read with
        ⟨rfl, -⟩ | ⟨k, -, -, h_k, rfl, h_off⟩
      · exact absurd rfl h_rc
      · obtain ⟨socket₁, h_fd₁, -, h_replies₁⟩ := h_off.fd
        refine ih h_kept h_fd₁ ?_ h_run
        rw [h_replies₁, List.length_drop, List.length_take_of_le h_k]
        omega

/-! ### A turn of the loop -/

/-- Nothing is under way on the connection, if there is one. -/
def NbdWorld.Calm (w : NbdWorld) : Prop :=
  ∀ socket, w.fd = some socket → socket.received = [] ∧ socket.replies = []

/-- What `invoke_nbd` sends behind the header of a request. -/
def NbdRequest.sentData (r : NbdRequest) (data : Bytes) : Bytes :=
  if r.type = nbdCmdWrite then data.take r.length else []

/-- What a read puts into the buffer. -/
def NbdRequest.readData (r : NbdRequest) (contents : Medium UInt8) : Bytes :=
  if r.type = nbdCmdRead then contents.slice r.offset r.length else []

variable (env r) in
/-- How a turn of the loop ends that finds `before`: the connection, which was
not `kept`, is lost, and the server may have answered or not; or it has answered
with an error; or everything has been done. -/
inductive TurnEnds (kept : Prop) (data : Bytes) (before : NbdServer) :
    Option Bool → Bytes → NbdWorld → Prop
  | lost {data' : Bytes} {w : NbdWorld} (h_kept : ¬kept) (got : Bytes)
      (h_data : data' = poke 0 got data)
      (h_got : got.length ≤ (r.readData before.contents).length) (h_fd : w.fd = none)
      (h_server : w.server = before ∨ w.server = before.answered env r (r.sentData data)) :
      TurnEnds kept data before none data' w
  | refused {w : NbdWorld} (h_error : (env.answer before.answers.length).1 ≠ 0) (h_calm : w.Calm)
      (h_server : w.server = before.answered env r (r.sentData data)) :
      TurnEnds kept data before (some false) data w
  | done {data' : Bytes} {w : NbdWorld} (h_error : (env.answer before.answers.length).1 = 0)
      (h_data : data' = poke 0 (r.readData before.contents) data) (h_fd : w.fd ≠ none)
      (h_calm : w.Calm) (h_server : w.server = before.answered env r (r.sentData data)) :
      TurnEnds kept data before none data' w

/-- A read leaves what the server stores. -/
theorem readData_answered (s : NbdServer) (payload : Bytes) :
    r.readData (s.answered env r payload).contents = r.readData s.contents := by
  obtain ⟨a, -, h_repeats⟩ := Repeats.answered env r payload s
  unfold NbdRequest.readData
  split
  · next h_read =>
    rw [h_repeats.contents_eq (by rw [h_read]; decide) (by rw [h_read]; decide)]
  · rfl

/-- The connection is lost before the server has answered. -/
theorem TurnEnds.unanswered {kept : Prop} {data : Bytes} {w : NbdWorld} (h_kept : ¬kept)
    (h_server : w.server = before) : TurnEnds env r kept data before none data w.close :=
  .lost h_kept [] (by rw [poke_zero]; rfl) (Nat.zero_le _) rfl (.inl h_server)

/-- The data behind the reply. -/
theorem replyData_eq (error : UInt32) (contents : Medium UInt8) :
    r.replyData error contents = if error = 0 then r.readData contents else [] := by
  unfold NbdRequest.replyData NbdRequest.readData
  by_cases h_error : error = 0 <;> by_cases h_read : r.type = nbdCmdRead <;> simp [h_error, h_read]

/-- **A turn of the loop**, on a connection where nothing is under way. The
request is followed through `Progress` until it has been sent, and the reply is
read off what the server has sent; every `READ` and `WRITE` that fails closes
the connection. -/
theorem invokeBody_spec {data data' : Bytes} {w w' : NbdWorld} {socket : NbdSocket}
    {rc : Option Bool} (h_valid : r.Valid) (h_data : (r.sentData data).length = r.payloadLength)
    (h_calm : w.Calm) (h_fd : w.fd = some socket)
    (h_run : w.invokeBody env r data = (rc, data', w')) :
    TurnEnds env r w.Kept data w.server rc data' w' := by
  obtain ⟨h_received, h_replies⟩ := h_calm socket h_fd
  unfold NbdWorld.invokeBody at h_run
  -- the header
  cases h₁ : w.WRITE env r.encode with | mk ok₁ w₁ =>
  rw [h₁] at h_run
  have h_start : Progress env r (r.sentData data) w.server w (r.encode ++ r.sentData data) :=
    .sending socket h_fd (by rw [h_received]; rfl) (by simp [NbdRequest.encode, be32]) h_replies rfl
  have h_kept₁ := fun h : w.Kept => writeLoop_kept h h₁
  rcases h_start.writeLoop h_valid h_data le_rfl h₁ with ⟨rfl, h_server⟩ | ⟨rfl, h_header⟩
  · -- a part of the header did not get through
    cases h_run
    exact .unanswered (fun h => by cases (h_kept₁ h).1) h_server
  dsimp only at h_run
  -- the payload, when there is one
  cases h₂ : (if r.type = nbdCmdWrite then w₁.WRITE env (data.take r.length) else (true, w₁)) with
  | mk ok₂ w₂ =>
  rw [h₂] at h_run
  have h_payload : (ok₂ = false ∧ w₂.server = w.server) ∨
      (ok₂ = true ∧ Progress env r (r.sentData data) w.server w₂ []) := by
    by_cases h_write : r.type = nbdCmdWrite
    · rw [if_pos h_write] at h₂
      have h_sent : r.sentData data = data.take r.length := if_pos h_write
      rw [← h_sent] at h₂
      have h_rest : Progress env r (r.sentData data) w.server w₁ (r.sentData data ++ []) := by
        rw [List.append_nil]
        exact h_header
      exact h_rest.writeLoop h_valid h_data le_rfl h₂
    · rw [if_neg h_write] at h₂
      cases h₂
      have h_nil : r.sentData data = [] := if_neg h_write
      rw [h_nil] at h_header ⊢
      exact .inr ⟨rfl, h_header⟩
  have h_kept₂ : w.Kept → ok₂ = true ∧ w₂.Kept := by
    intro h
    by_cases h_write : r.type = nbdCmdWrite
    · rw [if_pos h_write] at h₂
      exact writeLoop_kept (h_kept₁ h).2 h₂
    · rw [if_neg h_write] at h₂
      cases h₂
      exact ⟨rfl, (h_kept₁ h).2⟩
  rcases h_payload with ⟨rfl, h_server⟩ | ⟨rfl, h_sent⟩
  · -- a part of the payload did not get through
    cases h_run
    exact .unanswered (fun h => by cases (h_kept₂ h).1) h_server
  dsimp only at h_run
  -- the header of the reply
  cases h₃ : w₂.READ env 16 with | mk ok₃ res =>
  obtain ⟨nbdReply, w₃⟩ := res
  rw [h₃] at h_run
  generalize h_todo : ([] : Bytes) = todo at h_sent
  cases h_sent with
  | sending _ _ _ h_ne => exact absurd h_todo.symm h_ne
  -- the request went into a connection that is gone, which only the missing reply tells
  | lost socket₂ h_fd₂ h_lost h_replies₂ h_server =>
    obtain ⟨j, -, h_j, -, h_off, h_ok⟩ := readLoop_spec h_fd₂ le_rfl h₃
    rw [h_replies₂, List.length_nil] at h_j
    have h_fails : ok₃ = false := by
      cases ok₃ with
      | false => rfl
      | true => exact absurd (h_ok rfl) (by omega)
    subst h_fails
    -- the server has answered, but the header of the reply was lost
    cases h_run
    refine .unanswered (fun h => ?_) (h_off.server.trans h_server)
    have h_up := ((h_kept₂ h).2.of_fd h_fd₂).1
    rw [h_lost] at h_up
    cases h_up
  | answered socket₂ h_fd₂ h_received₂ h_replies₂ h_server =>
    obtain ⟨j, h_j, -, h_got, h_off, h_ok⟩ := readLoop_spec h_fd₂ le_rfl h₃
    have h_server₃ : w₃.server = w.server.answered env r (r.sentData data) :=
      h_off.server.trans h_server
    have h_kept₃ : w.Kept → ok₃ = true ∧ w₃.Kept := fun h =>
      readLoop_kept (h_kept₂ h).2 h_fd₂ (h_replies₂ ▸ r.length_reply _ _) h₃
    cases ok₃ with
    | false =>
      cases h_run
      exact .lost (fun h => by cases (h_kept₃ h).1) [] (by rw [poke_zero]; rfl) (Nat.zero_le _) rfl
        (.inr h_server₃)
    | true =>
      obtain ⟨socket₃, h_fd₃, h_received₃, h_replies₃⟩ := h_off.fd
      -- the whole header was read, and it is the reply to this request
      have h_sixteen := h_ok rfl
      subst h_sixteen
      rw [h_received₂] at h_received₃
      rw [h_replies₂, r.drop_reply, replyData_eq, readData_answered] at h_replies₃
      rw [h_replies₂, List.nil_append, r.take_reply] at h_got
      subst h_got
      dsimp only at h_run
      rw [r.magic_reply, if_neg (not_not.mpr rfl), r.error_reply] at h_run
      by_cases h_error : (env.answer w.server.answers.length).1 = 0
      · rw [if_pos h_error] at h_replies₃
        rw [h_error, if_neg (show ¬(0 : UInt32).toNat ≠ 0 by decide)] at h_run
        by_cases h_read : r.type = nbdCmdRead
        · rw [if_pos h_read] at h_run
          -- the data
          cases h₄ : w₃.READ env r.length with | mk ok₄ res₄ =>
          obtain ⟨got, w₄⟩ := res₄
          rw [h₄] at h_run
          have h_slice : (r.readData w.server.contents).length = r.length := by
            rw [NbdRequest.readData, if_pos h_read, Medium.length_slice]
          obtain ⟨i, h_i, -, h_got₄, h_off₄, h_ok₄⟩ := readLoop_spec h_fd₃ le_rfl h₄
          rw [List.nil_append, h_replies₃] at h_got₄
          cases ok₄ with
          | false =>
            -- a part of the data was lost; what has arrived is in the buffer
            cases h_run
            have h_kept₄ : w.Kept → false = true ∧ w₄.Kept := fun h =>
              readLoop_kept (h_kept₃ h).2 h_fd₃ (by rw [h_replies₃, h_slice]) h₄
            refine .lost (fun h => by cases (h_kept₄ h).1) got rfl ?_ rfl
              (.inr (h_off₄.server.trans h_server₃))
            rw [h_got₄]
            exact List.length_take_le' _ _
          | true =>
            obtain ⟨socket₄, h_fd₄, h_received₄, h_replies₄⟩ := h_off₄.fd
            -- everything was read, and nothing is left on the connection
            have h_all := h_ok₄ rfl
            subst h_all
            rw [List.take_of_length_le h_slice.le] at h_got₄
            rw [h_replies₃, List.drop_of_length_le h_slice.le] at h_replies₄
            subst h_got₄
            cases h_run
            refine .done h_error rfl (by rw [h_fd₄]; simp) ?_ (h_off₄.server.trans h_server₃)
            intro s h_s
            rw [h_fd₄] at h_s
            cases h_s
            exact ⟨h_received₄.trans h_received₃, h_replies₄⟩
        · rw [if_neg h_read] at h_run
          -- a write or a trim, whose reply is the header alone
          have h_nil : r.readData w.server.contents = [] := if_neg h_read
          rw [h_nil] at h_replies₃
          cases h_run
          refine .done h_error (by rw [h_nil, poke_zero]; rfl) (by rw [h_fd₃]; simp) ?_ h_server₃
          intro s h_s
          rw [h_fd₃] at h_s
          cases h_s
          exact ⟨h_received₃, h_replies₃⟩
      · -- an error, behind which the server sends nothing
        rw [if_neg h_error] at h_replies₃
        have h_ne : (env.answer w.server.answers.length).1.toNat ≠ 0 :=
          fun h_zero => h_error (UInt32.toNat.inj h_zero)
        rw [if_pos h_ne] at h_run
        cases h_run
        refine .refused h_error ?_ h_server₃
        intro s h_s
        rw [h_fd₃] at h_s
        cases h_s
        exact ⟨h_received₃, h_replies₃⟩

/-! ### Connecting -/

theorem NbdWorld.Calm.of_closed {w : NbdWorld} (h : w.fd = none) : w.Calm := by
  intro socket h_fd
  rw [h] at h_fd
  cases h_fd

/-- The greeting is read as a whole, or the connection is closed. In either case
nothing of it is left for the first request. -/
theorem greet_spec {w : NbdWorld} {socket : NbdSocket} (h_fd : w.fd = some socket)
    (h_received : socket.received = []) (h_replies : socket.replies.length = 152) :
    (w.greet env).server = w.server ∧ (w.greet env).Calm := by
  unfold NbdWorld.greet
  cases h_read : w.READ env 152 with | mk ok res =>
  obtain ⟨got, w₁⟩ := res
  obtain ⟨j, -, -, -, h_off, h_ok⟩ := readLoop_spec h_fd le_rfl h_read
  dsimp only
  split
  · next h_good =>
    -- the server sends 152 bytes and no more, so nothing is left of them
    refine ⟨h_off.server, ?_⟩
    obtain ⟨socket₁, h_fd₁, h_received₁, h_replies₁⟩ := h_off.fd
    intro s h_s
    rw [show w₁.fd = some s from h_s, Option.some_inj] at h_fd₁
    subst h_fd₁
    rw [h_ok h_good.1, ← h_replies, List.drop_length] at h_replies₁
    exact ⟨h_received₁.trans h_received, h_replies₁⟩
  · -- the greeting did not come as a whole, or is not that of an NBD server
    exact ⟨h_off.server, .of_closed rfl⟩

/-- A connection is new: nothing has been sent on it, and the greeting is on its
way. -/
theorem tryAddresses_spec {addresses : List NbdAddress} {socket : NbdSocket}
    (h : NbdWorld.tryAddresses addresses = some socket) :
    socket.received = [] ∧ socket.replies.length = 152 := by
  -- the first address that accepts decides
  induction addresses with
  | nil => cases h
  | cons address rest ih =>
    cases address with
    | noSocket => exact ih h
    | refused => exact ih h
    | accepted hello upLeft unsent downLeft =>
      cases h
      exact ⟨rfl, hello.length_toList⟩

theorem connectTurn_spec {w : NbdWorld} (h_fd : w.fd = none) :
    (w.connectTurn env).server = w.server ∧ (w.connectTurn env).Calm := by
  unfold NbdWorld.connectTurn
  dsimp only
  split
  · exact ⟨rfl, .of_closed h_fd⟩
  · split
    · exact ⟨rfl, .of_closed h_fd⟩
    · next h_some =>
      obtain ⟨h_received, h_replies⟩ := tryAddresses_spec h_some
      exact greet_spec rfl h_received h_replies

theorem connectLoop_spec {retry : Bool} {turns : ℕ} {w w' : NbdWorld} (h_fd : w.fd = none)
    (h_run : w.connectLoop env retry turns = some w') : w'.server = w.server ∧ w'.Calm := by
  -- on the attempts, none of which reaches the server
  induction turns generalizing w with
  | zero => cases h_run
  | succ turns ih =>
    have h_turn := @connectTurn_spec env w h_fd
    rw [NbdWorld.connectLoop] at h_run
    split at h_run
    · next h_again =>
      obtain ⟨h_server, h_calm⟩ := ih h_again.1 h_run
      exact ⟨h_server.trans h_turn.1, h_calm⟩
    · cases h_run
      exact h_turn

/-- **`connect`** leaves the server alone, and a connection where nothing is
under way. It says that it worked exactly when there is one. -/
theorem connect_spec {retry ok : Bool} {turns : ℕ} {w w' : NbdWorld} (h_calm : w.Calm)
    (h_run : w.connect env retry turns = some (ok, w')) :
    w'.server = w.server ∧ w'.Calm ∧ (ok = true ↔ w'.fd ≠ none) := by
  unfold NbdWorld.connect at h_run
  split at h_run
  · -- there is a connection already
    next h_fd =>
    cases h_run
    exact ⟨rfl, h_calm, iff_of_true rfl h_fd⟩
  · next h_fd =>
    obtain ⟨w₁, h_loop, h_eq⟩ := Option.map_eq_some_iff.mp h_run
    cases h_eq
    obtain ⟨h_server, h_calm'⟩ := connectLoop_spec (not_not.mp h_fd) h_loop
    exact ⟨h_server, h_calm', decide_eq_true_iff⟩

/-! ### All turns -/

/-- What is sent does not change when a turn has filled a part of the buffer. -/
theorem sentData_poke {got : Bytes} {contents : Medium UInt8}
    (h_got : got.length ≤ (r.readData contents).length) (data : Bytes) :
    r.sentData (poke 0 got data) = r.sentData data := by
  unfold NbdRequest.sentData
  by_cases h_write : r.type = nbdCmdWrite
  · -- a write reads nothing into the buffer, and only a write sends what is there
    have h_nil : r.readData contents = [] := if_neg (by rw [h_write]; decide)
    rw [h_nil] at h_got
    rw [List.length_eq_zero_iff.mp (Nat.le_zero.mp h_got), poke_zero]
    rfl
  · rw [if_neg h_write, if_neg h_write]

/-- **The loop**: the server answers this request only, and `invoke_nbd` returns
by its last answer. By induction on the turns: a turn that loses the connection
leaves a buffer that the next one fills from the start. -/
theorem invokeLoop_spec {turns : ℕ} {data data' : Bytes} {w w' : NbdWorld} {rc : Bool}
    (h_valid : r.Valid) (h_data : (r.sentData data).length = r.payloadLength) (h_calm : w.Calm)
    (h_run : w.invokeLoop env r turns data = some (rc, data', w')) :
    ∃ new last, Repeats r (r.sentData data) w.server w'.server (new ++ [last]) ∧
      (rc = true ↔ last.error = 0) ∧ w'.Calm ∧
      (rc = true → data' = poke 0 (r.readData w.server.contents) data) := by
  induction turns generalizing w data with
  | zero => cases h_run
  | succ turns ih =>
    -- what this turn leaves, the others start from: the server has answered at most once more
    rw [NbdWorld.invokeLoop] at h_run
    cases h_connect : w.connect env true turns with
    | none =>
      rw [h_connect] at h_run
      cases h_run
    | some res =>
      obtain ⟨connected, w₁⟩ := res
      rw [h_connect] at h_run
      dsimp only at h_run
      obtain ⟨h_server₁, h_calm₁, h_connected⟩ := connect_spec h_calm h_connect
      rw [← h_server₁]
      cases connected with
      | false =>
        -- without a connection the loop starts again
        have h_closed : w₁.fd = none := by
          by_contra h_fd
          exact Bool.false_ne_true (h_connected.mpr h_fd)
        rw [if_neg Bool.false_ne_true] at h_run
        dsimp only at h_run
        rw [if_pos h_closed] at h_run
        exact ih h_data h_calm₁ h_run
      | true =>
        obtain ⟨socket, h_fd⟩ := Option.ne_none_iff_exists'.mp (h_connected.mp rfl)
        rw [if_pos rfl] at h_run
        cases h_body : w₁.invokeBody env r data with | mk ret res =>
        obtain ⟨data₁, w₂⟩ := res
        rw [h_body] at h_run
        obtain ⟨a, h_a, h_answered⟩ := Repeats.answered env r (r.sentData data) w₁.server
        cases invokeBody_spec h_valid h_data h_calm₁ h_fd h_body with
        | lost _ got h_poke h_got h_closed h_server =>
          subst h_poke
          dsimp only at h_run
          rw [if_pos h_closed] at h_run
          have h_same := sentData_poke h_got data
          obtain ⟨new, last, h_repeats, h_rc, h_calm₂, h_filled⟩ :=
            ih (h_same ▸ h_data) (.of_closed h_closed) h_run
          rw [h_same] at h_repeats
          rcases h_server with h_server | h_server
          · -- the server has not answered
            rw [h_server] at h_repeats h_filled
            rw [poke_poke h_got] at h_filled
            exact ⟨new, last, h_repeats, h_rc, h_calm₂, h_filled⟩
          · -- it has, but the answer did not get through
            rw [h_server] at h_repeats h_filled
            rw [readData_answered, poke_poke h_got] at h_filled
            refine ⟨a :: new, last, h_answered.trans h_repeats, h_rc, h_calm₂, h_filled⟩
        | refused h_error h_calm₂ h_server =>
          cases h_run
          -- the answer is an error, and `invoke_nbd` returns false by it
          rw [← h_server] at h_answered
          exact ⟨[], a, h_answered, iff_of_false Bool.false_ne_true (h_a ▸ h_error), h_calm₂,
            fun h => by cases h⟩
        | done h_error h_poke h_open h_calm₂ h_server =>
          dsimp only at h_run
          rw [if_neg h_open, decide_eq_true h_open] at h_run
          cases h_run
          -- the answer is no error, and the buffer has what was read
          rw [← h_server] at h_answered
          exact ⟨[], a, h_answered, iff_of_true rfl (h_a.trans h_error), h_calm₂, fun _ => h_poke⟩

end Exchange

/-! ### The loop ends -/

section Ends

variable {env : NbdEnv} {r : NbdRequest}

theorem write_attempt {w w' : NbdWorld} {bytes : Bytes} {rc : Option ℕ}
    (h : w.write env bytes = (rc, w')) : w'.attempt = w.attempt := by
  unfold NbdWorld.write at h
  dsimp only at h
  split at h
  · cases h
    rfl
  · split at h
    · cases h
      rfl
    · split at h <;> cases h <;> rfl
    · cases h
      rfl

theorem writeLoop_attempt {turns : ℕ} {w w' : NbdWorld} {bytes : Bytes} {ok : Bool}
    (h : w.writeLoop env turns bytes = (ok, w')) : w'.attempt = w.attempt := by
  -- no turn connects again
  induction turns generalizing w bytes with
  | zero =>
    cases h
    rfl
  | succ turns ih =>
    rw [NbdWorld.writeLoop] at h
    split at h
    · cases h
      rfl
    · split at h
      · next h_write =>
        cases h
        exact write_attempt h_write
      · next h_write => exact (ih h).trans (write_attempt h_write)

theorem read_attempt {w w' : NbdWorld} {len : ℕ} {rc : Option Bytes}
    (h : w.read env len = (rc, w')) : w'.attempt = w.attempt := by
  unfold NbdWorld.read at h
  dsimp only at h
  split at h
  · cases h
    rfl
  · split at h <;> cases h <;> rfl

theorem readLoop_attempt {turns len : ℕ} {w w' : NbdWorld} {got got' : Bytes} {ok : Bool}
    (h : w.readLoop env turns len got = (ok, got', w')) : w'.attempt = w.attempt := by
  -- no turn connects again
  induction turns generalizing w len got with
  | zero =>
    cases h
    rfl
  | succ turns ih =>
    rw [NbdWorld.readLoop] at h
    split at h
    · cases h
      rfl
    · split at h
      · next h_read =>
        cases h
        exact read_attempt h_read
      · next h_read => exact (ih h).trans (read_attempt h_read)

/-- Only `connect` makes attempts to connect. A turn of the loop sends and reads
on the connection it has, or gives it up. -/
theorem invokeBody_attempt {data data' : Bytes} {w w' : NbdWorld} {rc : Option Bool}
    (h : w.invokeBody env r data = (rc, data', w')) : w'.attempt = w.attempt := by
  unfold NbdWorld.invokeBody at h
  -- along the four stages: the header, the payload, the reply, the data
  split at h
  · next h₁ =>
    have h_first := writeLoop_attempt h₁
    cases h
    exact h_first
  next w₁ h₁ =>
  have h_first : w₁.attempt = w.attempt := writeLoop_attempt h₁
  have h_second : ∀ ok w₂, (if r.type = nbdCmdWrite then w₁.WRITE env (data.take r.length)
      else (true, w₁)) = (ok, w₂) → w₂.attempt = w.attempt := by
    intro ok w₂ h₂
    split at h₂
    · exact (writeLoop_attempt h₂).trans h_first
    · cases h₂
      exact h_first
  split at h
  · next h₂ =>
    have h_payload := h_second _ _ h₂
    cases h
    exact h_payload
  next w₂ h₂ =>
  split at h
  · next h₃ =>
    cases h
    exact (readLoop_attempt h₃).trans (h_second _ _ h₂)
  next w₃ h₃ =>
  have h_third : w₃.attempt = w.attempt := (readLoop_attempt h₃).trans (h_second _ _ h₂)
  split at h
  · cases h
    exact h_third
  split at h
  · cases h
    exact h_third
  split at h
  · split at h
    · next h₄ =>
      cases h
      exact (readLoop_attempt h₄).trans h_third
    · next h₄ =>
      cases h
      exact (readLoop_attempt h₄).trans h_third
  · cases h
    exact h_third

/-- The `n`-th attempt to connect leads to the server, on a connection that is
not lost. -/
def NbdEnv.Works (env : NbdEnv) (n : ℕ) : Prop :=
  ∃ addresses socket, env.attempts n = some addresses ∧
    NbdWorld.tryAddresses addresses = some socket ∧
    socket.upLeft = none ∧ socket.downLeft = none ∧ socket.replies.take 8 = ascii "NBDMAGIC"

theorem greet_attempt (w : NbdWorld) : (w.greet env).attempt = w.attempt := by
  unfold NbdWorld.greet
  cases h_read : w.READ env 152 with | mk ok res =>
  obtain ⟨got, w₁⟩ := res
  have h_attempt : w₁.attempt = w.attempt := readLoop_attempt h_read
  dsimp only
  split <;> exact h_attempt

theorem connectTurn_attempt (w : NbdWorld) : (w.connectTurn env).attempt = w.attempt + 1 := by
  unfold NbdWorld.connectTurn
  dsimp only
  split
  · rfl
  · split
    · rfl
    · exact greet_attempt _

/-- An attempt that works ends with a connection, with the greeting read and
nothing under way. -/
theorem connectTurn_works {w : NbdWorld} (h_works : env.Works w.attempt) :
    (w.connectTurn env).Kept := by
  obtain ⟨addresses, socket, h_addresses, h_some, h_up, h_down, h_magic⟩ := h_works
  obtain ⟨-, h_length⟩ := tryAddresses_spec h_some
  -- the address is resolved and a socket connected, so it is up to the greeting
  unfold NbdWorld.connectTurn
  dsimp only
  rw [h_addresses]
  dsimp only
  rw [h_some]
  dsimp only
  unfold NbdWorld.greet
  generalize h_w : ({ w with fd := some socket, attempt := w.attempt + 1 } : NbdWorld) = w₀
  have h_fd : w₀.fd = some socket := by rw [← h_w]
  cases h_read : w₀.READ env 152 with | mk ok res =>
  obtain ⟨got, w₁⟩ := res
  -- which is read as a whole, since this connection is not lost
  obtain ⟨h_ok, h_kept⟩ := readLoop_kept ⟨socket, h_fd, h_up, h_down⟩ h_fd h_length.ge h_read
  obtain ⟨j, -, -, h_got, -, h_all⟩ := readLoop_spec h_fd le_rfl h_read
  rw [h_all h_ok, ← h_length, List.take_length, List.nil_append] at h_got
  dsimp only
  have h_hello : (poke 0 got (zeros 152)).take 8 = ascii "NBDMAGIC" := by
    rw [h_got, poke_zero, List.take_append_of_le_length (by omega), h_magic]
  rw [if_pos ⟨h_ok, h_hello⟩]
  exact h_kept

/-- `connect` goes on up to an attempt that works. It may end before, with a
connection that will be lost; each attempt brings it closer to `m`. -/
theorem connectLoop_ends {m turns : ℕ} (h_works : env.Works m) {w : NbdWorld}
    (h_le : w.attempt ≤ m) (h_turns : m - w.attempt < turns) :
    ∃ w', w.connectLoop env true turns = some w' ∧ w'.fd ≠ none ∧ w.attempt < w'.attempt ∧
      w'.attempt ≤ m + 1 ∧ (w'.attempt = m + 1 → w'.Kept) := by
  induction turns generalizing w with
  | zero => exact absurd h_turns (Nat.not_lt_zero _)
  | succ turns ih =>
    have h_attempt := @connectTurn_attempt env w
    have h_last : w.attempt = m → (w.connectTurn env).Kept :=
      fun h => connectTurn_works (h ▸ h_works)
    rw [NbdWorld.connectLoop]
    -- the attempt failed, so it was not the one that works; or there is a connection
    by_cases h_fd : (w.connectTurn env).fd = none
    · have h_ne : w.attempt ≠ m := by
        intro h
        obtain ⟨socket, h_some, -⟩ := h_last h
        rw [h_fd] at h_some
        cases h_some
      rw [if_pos ⟨h_fd, rfl⟩]
      obtain ⟨w', h_run, h_open, h_gt, h_rest⟩ :=
        @ih (w.connectTurn env) (by omega) (by omega)
      exact ⟨w', h_run, h_open, by omega, h_rest⟩
    · rw [if_neg fun h => h_fd h.1]
      exact ⟨_, rfl, h_fd, by omega, by omega, fun h => h_last (by omega)⟩

/-- A turn on a connection ends the loop, or the connection was lost. In the
second case the next turn begins with an attempt to connect. -/
theorem invokeLoop_of_open {turns : ℕ} {data : Bytes} {w : NbdWorld} {socket : NbdSocket}
    (h_valid : r.Valid) (h_data : (r.sentData data).length = r.payloadLength) (h_calm : w.Calm)
    (h_fd : w.fd = some socket)
    (h_again : ∀ (data' : Bytes) (w' : NbdWorld),
      (r.sentData data').length = r.payloadLength → ¬w.Kept → w'.fd = none →
      w'.attempt = w.attempt → ∃ res, w'.invokeLoop env r turns data' = some res) :
    ∃ res, (match w.invokeBody env r data with
      | (some rc, data, w) => some (rc, data, w)
      | (none, data, w) =>
        if w.fd = none then w.invokeLoop env r turns data
        else some (decide (w.fd ≠ none), data, w)) = some res := by
  cases h_body : w.invokeBody env r data with | mk rc res =>
  obtain ⟨data', w'⟩ := res
  have h_attempt := invokeBody_attempt h_body
  cases invokeBody_spec h_valid h_data h_calm h_fd h_body with
  | lost h_kept got h_poke h_got h_closed _ =>
    dsimp only
    rw [if_pos h_closed]
    -- the only end that leads to another turn
    refine h_again data' w' ?_ h_kept h_closed h_attempt
    rw [h_poke, sentData_poke h_got, h_data]
  | refused => exact ⟨_, rfl⟩
  | done _ _ h_open _ _ =>
    dsimp only
    rw [if_neg h_open]
    exact ⟨_, rfl⟩

/-- Without a connection, the loop ends behind an attempt that works at the
latest. By induction on the number of attempts up to that one. -/
theorem invokeLoop_ends {m turns : ℕ} (h_works : env.Works m) (h_valid : r.Valid) {data : Bytes}
    {w : NbdWorld} (h_data : (r.sentData data).length = r.payloadLength) (h_fd : w.fd = none)
    (h_le : w.attempt ≤ m) (h_turns : m - w.attempt + 1 < turns) :
    ∃ res, w.invokeLoop env r turns data = some res := by
  induction turns generalizing w data with
  | zero => exact absurd h_turns (Nat.not_lt_zero _)
  | succ turns ih =>
    -- `connect` ends with a connection, with that of the attempt `m` at the latest
    obtain ⟨w₁, h_loop, h_open, h_gt, h_le₁, h_kept⟩ :=
      connectLoop_ends h_works h_le (show m - w.attempt < turns by omega)
    have h_connect : w.connect env true turns = some (true, w₁) := by
      unfold NbdWorld.connect
      rw [if_neg (not_not.mpr h_fd), h_loop, Option.map_some, decide_eq_true h_open]
    obtain ⟨socket, h_fd₁⟩ := Option.ne_none_iff_exists'.mp h_open
    have h_calm₁ := (connect_spec (.of_closed h_fd) h_connect).2.1
    rw [NbdWorld.invokeLoop, h_connect]
    dsimp only
    rw [if_pos rfl]
    refine invokeLoop_of_open h_valid h_data h_calm₁ h_fd₁ ?_
    intro data' w' h_data' h_lost h_closed h_attempt
    -- the connection was lost, so it was not yet the one that works
    have h_ne : w₁.attempt ≠ m + 1 := fun h => h_lost (h_kept h)
    exact ih h_data' h_closed (by omega) (by omega)

end Ends

/-! ### Calls -/

/-- What is left behind by the calls of one thread: `begin`, and `invoke_nbd`
with buffers that are large enough. -/
inductive NbdReached (env : NbdEnv) (contents : Medium UInt8) : NbdWorld → Prop
  | constructed : NbdReached env contents { server := { contents := contents } }
  | connect {w w' : NbdWorld} {retry ok : Bool} {turns : ℕ} (h : NbdReached env contents w)
      (h_run : w.connect env retry turns = some (ok, w')) : NbdReached env contents w'
  | invoke {w w' : NbdWorld} {command : UInt32} {offset : UInt64} {nBytes : UInt32}
      {data data' : Bytes} {rc : Bool} {turns : ℕ} (h : NbdReached env contents w)
      (h_data : command.toNat = nbdCmdRead ∨ command.toNat = nbdCmdWrite →
        nBytes.toNat ≤ data.length)
      (h_run : w.invokeNbd env turns command offset nBytes data = some (rc, data', w')) :
      NbdReached env contents w'

/-- A call that returns `rc` with `data'` in its buffer has lost nothing. The
request may have been sent several times, and executed as often, but in the end
it comes to the same as one execution. -/
structure LosesNothing (r : NbdRequest) (data : Bytes) (rc : Bool) (data' : Bytes)
    (before after : NbdServer) : Prop where
  /-- The server has answered this request only, and at last with an error or
  not. -/
  answered : ∃ new last, after.answers = before.answers ++ (new ++ [last]) ∧
    (∀ a ∈ new ++ [last], a.request = r ∧ a.payload = r.sentData data) ∧
    (rc = true ↔ last.error = 0)
  /-- After a write the server stores the data, and nothing else has changed. -/
  written : rc = true → r.type = nbdCmdWrite →
    after.contents = before.contents.store r.offset (data.take r.length)
  /-- After a read the buffer has what the server stores, and nothing has
  changed there. -/
  filled : rc = true → r.type = nbdCmdRead → after.contents = before.contents ∧
    data' = before.contents.slice r.offset r.length ++ data.drop r.length

theorem nbdRequest_valid (command : UInt32) (offset : UInt64) (nBytes : UInt32) :
    (nbdRequest command offset nBytes).Valid where
  type := command.toNat_lt
  handle := Nat.two_pow_pos 64
  offset := offset.toNat_lt
  length := nBytes.toNat_lt

theorem length_sentData {command : UInt32} {offset : UInt64} {nBytes : UInt32} {data : Bytes}
    (h_data : command.toNat = nbdCmdRead ∨ command.toNat = nbdCmdWrite →
      nBytes.toNat ≤ data.length) :
    ((nbdRequest command offset nBytes).sentData data).length =
      (nbdRequest command offset nBytes).payloadLength := by
  unfold NbdRequest.sentData NbdRequest.payloadLength
  split
  · next h_write => exact List.length_take_of_le (h_data (.inr h_write))
  · rfl

/-- Between the calls nothing is under way. -/
theorem NbdReached.calm {env : NbdEnv} {contents : Medium UInt8} {w : NbdWorld}
    (h : NbdReached env contents w) : w.Calm := by
  induction h with
  | constructed => exact .of_closed rfl
  | connect _ h_run ih => exact (connect_spec ih h_run).2.1
  | invoke _ h_data h_run ih =>
    obtain ⟨_, _, _, _, h_calm, _⟩ :=
      invokeLoop_spec (nbdRequest_valid _ _ _) (length_sentData h_data) ih h_run
    exact h_calm

/-- **`invoke_nbd` returns**, when an attempt to connect works at last. Without
one it would go on for ever, which is what the source does. -/
theorem invokeNbd_returns {env : NbdEnv} {contents : Medium UInt8} {w : NbdWorld}
    (h_reached : NbdReached env contents w) {command : UInt32} {offset : UInt64} {nBytes : UInt32}
    {data : Bytes} (h_data : command.toNat = nbdCmdRead ∨ command.toNat = nbdCmdWrite →
      nBytes.toNat ≤ data.length) {m : ℕ} (h_works : env.Works m) (h_le : w.attempt ≤ m) :
    ∃ turns res, w.invokeNbd env turns command offset nBytes data = some res := by
  refine ⟨m - w.attempt + 3, ?_⟩
  have h_valid := nbdRequest_valid command offset nBytes
  have h_sent := @length_sentData command offset nBytes data h_data
  unfold NbdWorld.invokeNbd
  by_cases h_fd : w.fd = none
  · -- there is no connection yet
    exact invokeLoop_ends h_works h_valid h_sent h_fd h_le (by omega)
  · -- there is one, and it may be lost in the first turn
    obtain ⟨socket, h_some⟩ := Option.ne_none_iff_exists'.mp h_fd
    have h_connect : w.connect env true (m - w.attempt + 2) = some (true, w) := if_pos h_fd
    rw [NbdWorld.invokeLoop, h_connect]
    dsimp only
    rw [if_pos rfl]
    refine invokeLoop_of_open h_valid h_sent h_reached.calm h_some ?_
    intro data' w' h_data' _ h_closed h_attempt
    exact invokeLoop_ends h_works h_valid h_data' h_closed (by omega) (by omega)

/-- A call that returns has lost nothing, from any state that calls can lead to. -/
theorem invokeNbd_losesNothing {env : NbdEnv} {contents : Medium UInt8} {w w' : NbdWorld}
    (h_reached : NbdReached env contents w) {command : UInt32} {offset : UInt64} {nBytes : UInt32}
    {data data' : Bytes} {rc : Bool} {turns : ℕ}
    (h_data : command.toNat = nbdCmdRead ∨ command.toNat = nbdCmdWrite →
      nBytes.toNat ≤ data.length)
    (h_run : w.invokeNbd env turns command offset nBytes data = some (rc, data', w')) :
    LosesNothing (nbdRequest command offset nBytes) data rc data' w.server w'.server := by
  -- the requests of the call, of which only the last is answered to the caller
  obtain ⟨new, last, h_repeats, h_rc, -, h_filled⟩ :=
    invokeLoop_spec (nbdRequest_valid _ _ _) (length_sentData h_data) h_reached.calm h_run
  refine ⟨⟨new, last, h_repeats.answers, h_repeats.own, h_rc⟩, ?_, ?_⟩
  · intro h_true h_write
    rw [h_repeats.contents_of_write h_write (h_rc.mp h_true), NbdRequest.sentData, if_pos h_write]
  · intro h_true h_read
    constructor
    · exact h_repeats.contents_eq (by rw [h_read]; decide) (by rw [h_read]; decide)
    · rw [h_filled h_true, NbdRequest.readData, if_pos h_read, poke_zero, Medium.length_slice]

/-- **Reconnects lose nothing.** Behind any calls, whatever is lost on the way:
a call returns once an attempt to connect works, and when it returns it has lost
nothing. -/
theorem reconnects_loseNothing {env : NbdEnv} {contents : Medium UInt8} {w : NbdWorld}
    (h_reached : NbdReached env contents w) {command : UInt32} {offset : UInt64} {nBytes : UInt32}
    {data : Bytes} (h_data : command.toNat = nbdCmdRead ∨ command.toNat = nbdCmdWrite →
      nBytes.toNat ≤ data.length) :
    (∀ turns rc data' w', w.invokeNbd env turns command offset nBytes data = some (rc, data', w') →
      LosesNothing (nbdRequest command offset nBytes) data rc data' w.server w'.server) ∧
    ∀ m, env.Works m → w.attempt ≤ m →
      ∃ turns res, w.invokeNbd env turns command offset nBytes data = some res :=
  ⟨fun _ _ _ _ h_run => invokeNbd_losesNothing h_reached h_data h_run,
    fun _ h_works h_le => invokeNbd_returns h_reached h_data h_works h_le⟩

/-- The greeting of a server. -/
def nbdGreeting : Vector UInt8 152 := ⟨(ascii "NBDMAGIC" ++ zeros 144).toArray, by decide +kernel⟩

/-- The first connection is lost in the header of the request, which the client
does not notice, and the third one in the header of the reply. -/
def lossyEnv : NbdEnv where
  attempts
    | 0 => some [.refused, .accepted nbdGreeting (some 20) 12 none]
    | 1 => none
    | 2 => some [.accepted nbdGreeting none 0 (some 160)]
    | _ => some [.accepted nbdGreeting none 0 none]
  chunk _ := 63
  answer _ := (0, false)

/-- The server executes the write twice, and stores it once. -/
theorem reconnects_loseNothing_twice : ∃ res,
    ({ server := { contents := fun _ => 0 } } : NbdWorld).invokeNbd lossyEnv 9 1 2 4 [1, 2, 3, 4] =
      some res ∧ res.1 = true ∧ res.2.2.server.answers.length = 2 ∧
      LosesNothing (nbdRequest 1 2 4) [1, 2, 3, 4] res.1 res.2.1
        { contents := fun _ => 0 } res.2.2.server := by
  have h_run : ((({ server := { contents := fun _ => 0 } } : NbdWorld).invokeNbd lossyEnv 9 1 2 4
      [1, 2, 3, 4]).map fun res => (res.1, res.2.2.server.answers.length)) = some (true, 2) := by
    decide +kernel
  obtain ⟨⟨rc, data', w'⟩, h_res, h_eq⟩ := Option.map_eq_some_iff.mp h_run
  rw [Prod.mk.injEq] at h_eq
  exact ⟨_, h_res, h_eq.1, h_eq.2, (reconnects_loseNothing .constructed
    (fun _ => by decide)).1 _ _ _ _ h_res⟩

end IscsiTarget
