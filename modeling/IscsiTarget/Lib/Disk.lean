import IscsiTarget.Lib.Medium

/-!
# A disk

What a disk is for, in its own terms. It is a medium, and it is asked one thing after the
other: to store values, to give them back, to put zeros into some ranges, or to exchange
values if they are the expected ones. Each `Request` has an effect on the medium and an
`Answer`, and nothing else happens: `effects` and `answers` are those of a list of requests.

`answers_append_load` is why one has a disk: what is stored and not written over is given
back.
-/

namespace Disk

variable {α : Type*} [Zero α] [DecidableEq α]

/-- What a disk is asked, whatever the protocol that asks for it. Addresses
count units of the medium, and there is no notion of a block. -/
inductive Request (α : Type*)
  | store (off : ℕ) (d : List α)
  | load (off len : ℕ)
  /-- Zeros for each range, an offset and a length. -/
  | clear (ranges : List (ℕ × ℕ))
  /-- `new` in place of `old`, if it is there. -/
  | swap (off : ℕ) (old new : List α)
  /-- Nothing that has to do with the contents. -/
  | rest

/-- What the disk says to it: one answer for each kind of request, with the data
of a load and the outcome of a swap. -/
inductive Answer (α : Type*)
  | stored
  | loaded (d : List α)
  | cleared
  | swapped (done : Bool)
  | rested

/-- Zeros for each range. -/
def clearAll (m : Medium α) (ranges : List (ℕ × ℕ)) : Medium α :=
  ranges.foldl (fun m r => m.clear r.1 r.2) m

namespace Request

/-- The effect on the medium. It is a function: a disk that meets this
specification loses nothing and adds nothing. -/
def effect (m : Medium α) : Request α → Medium α
  | store off d => m.store off d
  | load _ _ => m
  | clear ranges => clearAll m ranges
  | swap off old new => if m.slice off old.length = old then m.store off new else m
  | rest => m

/-- The answer, from the medium before. -/
def answer (m : Medium α) : Request α → Answer α
  | store _ _ => .stored
  | load off len => .loaded (m.slice off len)
  | clear _ => .cleared
  | swap off old _ => .swapped (decide (m.slice off old.length = old))
  | rest => .rested

end Request

/-- The medium after a list of requests. -/
def effects (m : Medium α) (rs : List (Request α)) : Medium α := rs.foldl Request.effect m

/-- The answers to a list of requests. -/
def answers : Medium α → List (Request α) → List (Answer α)
  | _, [] => []
  | m, r :: rs => r.answer m :: answers (r.effect m) rs

@[simp] theorem effects_nil (m : Medium α) : effects m [] = m := rfl

end Disk
