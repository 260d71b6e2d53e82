import IscsiTarget.Model.Server

/-!
# The sessions of a server

`server::handler` gives every connection a thread of its own; the threads share one `scsi`.
A step of the server is one PDU of one session from beginning to end, a connection that is
accepted, or one that ends.

When a connection ends the handler flushes the backend and gives a reservation back that its
thread still has.
-/

namespace IscsiTarget

variable {β : Type}

/-- The end of a session in `handler`. -/
def Scsi.endSession (T : Target β) (s : Scsi β) : Scsi β :=
  let s' := (s.sync T).2
  if s'.lockingStatus T = .locked then (s'.unlockDevice T).2 else s'

/-- A server. Its connections have the backend and the build in common; each has
its own thread, and its own way to the outside world. -/
structure Server (β : Type) where
  build : Build
  backend : Backend β
  /-- The target as the thread sees it. -/
  target : ℕ → Target β
  build_eq : ∀ t, (target t).build = build
  backend_eq : ∀ t, (target t).backend = backend
  thread_eq : ∀ t, (target t).thread = t

/-- `scsi`, and the session of every thread that serves a connection. -/
structure ServerState (β : Type) where
  scsi : Scsi β
  sessions : ℕ → Option Session := fun _ => none

/-- A step of the server. -/
inductive ServerAction
  | connect (t : ℕ) (ses : Session)
  | receive (t : ℕ) (fuel : ℕ) (q : Pdu)
  | disconnect (t : ℕ)

/-- The thread that takes the step. -/
def ServerAction.thread : ServerAction → ℕ
  | connect t _ => t
  | receive t _ _ => t
  | disconnect t => t

/-- One step; an error when it cannot be taken, or ends the program. What a
thread does about one PDU is one step. -/
def Server.step (S : Server β) (s : ServerState β) :
    ServerAction → Except Unit (ServerState β)
  | .connect t ses =>
    match s.sessions t with
    | some _ => .error ()
    | none => .ok { s with sessions := Function.update s.sessions t (some ses) }
  | .receive t fuel q =>
    match s.sessions t with
    | none => .error ()
    | some ses =>
      match serve (S.target t) fuel { scsi := s.scsi, ses := ses } q with
      | .error _ => .error ()
      | .ok c => .ok { scsi := c.scsi, sessions := Function.update s.sessions t (some c.ses) }
  | .disconnect t =>
    match s.sessions t with
    | none => .error ()
    | some _ =>
      .ok
        { scsi := s.scsi.endSession (S.target t)
          sessions := Function.update s.sessions t none }

end IscsiTarget
