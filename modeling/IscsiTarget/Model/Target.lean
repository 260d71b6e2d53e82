import IscsiTarget.Model.Backend
import IscsiTarget.Model.Build
import IscsiTarget.Model.Session

/-!
# The target and its trace

`Target β` is everything that stays the same while the target runs: the build,
the settings given at start-up and the backend. What the outside world decides
(whether a send reaches the peer, what the random generator delivers, how much
heap is free) is a function of the trace so far, so a statement about every
`Target` is a statement about every behaviour of the outside world.

The trace is a list of events in the order they happen. The source keeps no such
list; the model does, because most of what can be said about the target is about
the order of its backend calls and of the PDUs it sends.
-/

namespace IscsiTarget

/-- A call of a virtual function of `backend`, with its arguments. Of a
`cmpwrite` the two buffers are left out. -/
inductive IoCall
  | sync
  | write (blockNr : UInt64) (n : UInt32) (data : Bytes)
  | trim (blockNr : UInt64) (n : UInt32)
  | read (blockNr : UInt64) (n : UInt32)
  | cmpwrite (blockNr : UInt64) (n : UInt32)
  deriving DecidableEq, Repr

/-- One entry of the trace. It is what can be observed of a target from outside,
by its initiator or its backend. -/
inductive Event
  /-- `push_response` is given this PDU. -/
  | received (q : Pdu)
  /-- A backend call and whether it succeeded. -/
  | io (call : IoCall) (ok : Bool)
  /-- A PDU handed to `com_client::send`, and what that returned. -/
  | sent (p : PduOut) (ok : Bool)
  deriving DecidableEq, Repr

/-- Settings, and the outside world. What comes from outside is a function of
the trace, so that it may depend on all that has happened before. -/
structure Setup where
  build : Build
  /-- `scsi::trim_level`. -/
  trimLevel : ℤ
  /-- `scsi::serial`. -/
  serial : Bytes
  /-- `session::target_name`. -/
  targetName : Bytes
  /-- `com_client::get_local_address`. -/
  localAddress : Bytes
  /-- `server::digest_chk`. -/
  digestChk : Bool
  /-- The thread that serves the connection (`std::this_thread::get_id`). -/
  thread : ℕ
  /-- Whether the next `com_client::send` succeeds. -/
  send : List Event → Bool
  /-- What the `i`-th call of `my_getrandom` from here delivers, if it succeeds. -/
  random : List Event → ℕ → Option UInt32
  /-- `get_free_heap_space`. -/
  freeHeap : List Event → UInt32

/-- The target: its settings and its backend. -/
structure Target (β : Type) extends Setup where
  backend : Backend β

/-- The ways a call ends without returning to its caller. In the first case the
source has undefined behaviour, and in the last one it is still in its loop. -/
inductive Fault
  /-- A read past the end of a buffer. -/
  | outOfBounds
  /-- `std::optional::value` of an empty optional. -/
  | badOptionalAccess
  /-- An exception nobody catches. -/
  | uncaught
  /-- The number of turns the model gives to an unbounded loop is used up. -/
  | outOfFuel
  deriving DecidableEq, Repr

namespace Target

variable {β : Type} (T : Target β)

/-- `get_block_size`, of the backend, of `scsi` and of the session alike. -/
abbrev blockSize : ℕ := T.backend.getBlockSize

theorem blockSize_pos : 0 < T.blockSize := T.backend.getBlockSize_pos

end Target

end IscsiTarget
