import IscsiTarget.Model.RangeLock

/-!
# Range locking cannot deadlock

Threads that lock a block range, do their I/O and unlock it are threads in locked
sections, whatever the ranges and the I/O are (`RangeWork.program`). `lock_range` goes
through its set of indexes in ascending order, which is all the general argument needs.
-/

namespace IscsiTarget

open LockedSections

/-- I/O on block ranges: a section of it names the range `lock_range` is given.
Everything else is left open. -/
structure RangeWork (C W σ ℓ : Type*) where
  range : C → UInt64 × UInt32
  start : C → W
  act : ℓ → C → W → σ → Option (W × σ)
  finished : W → Bool
  goesOn : W → Bool
  env : ℓ → σ → Option σ

/-- The threads as they use `lock_range` and `unlock_range`. What they do under
the locks is a parameter: freedom from deadlock does not depend on it. -/
def RangeWork.program {C W σ ℓ : Type*} (R : RangeWork C W σ ℓ) (b : Build) :
    Program (Fin b.nBackendLocks) C W σ ℓ where
  locks c := b.lockRange (R.range c).1 (R.range c).2
  start := R.start
  act := R.act
  finished := R.finished
  goesOn := R.goesOn
  env := R.env

/-- **Range locking cannot deadlock**, and a thread that is done with
`unlock_range` holds no mutex. `lock_range` takes its mutexes in the order of
their numbers, so the thread that holds the highest one of all is never kept
waiting. -/
theorem rangeLocking_deadlock_free {Θ C W σ ℓ : Type*} [DecidableEq Θ] (b : Build)
    (R : RangeWork C W σ ℓ) (shared : σ) (as : List (Action Θ C ℓ))
    {s : State Θ (Fin b.nBackendLocks) C W σ}
    (hrun : Machine.run (step (R.program b)) { shared := shared } as = .ok s) :
    (¬ ∃ S : Set Θ, S.Nonempty ∧ ∀ t ∈ S, ∃ u ∈ S, s.Waits t u) ∧
      ∀ t, s.phase t = .releasing [] ∨ s.phase t = .idle → ∀ nr, s.owner nr ≠ some t := by
  have h_inv := inv_of_run hrun
  refine ⟨h_inv.no_deadlock, fun t ht => h_inv.free_of_held ?_⟩
  rcases ht with ht | ht <;> rw [ht] <;> rfl

/-- Threads that lock a range and do nothing behind it. -/
def Sample.rangeWork : RangeWork (UInt64 × UInt32) Unit Unit Unit where
  range c := c
  start _ := ()
  act _ _ _ _ := none
  finished _ := true
  goesOn _ := true
  env _ _ := none

section

attribute [local instance] Sample.neZero_two

/-- Two threads whose ranges overlap: the second one waits for the first. -/
def Sample.overlapping : List (Action (Fin 2) (UInt64 × UInt32) Unit) :=
  [.call 0 [(4, 2)], .call 1 [(3, 2)], .begin 0, .begin 1, .lock 0, .lock 0, .lock 1, .enter 0]

end

/-- They do not block each other. -/
theorem rangeLocking_deadlock_free_overlapping :
    ∃ s, Machine.run (step (Sample.rangeWork.program .posix)) { shared := () }
        Sample.overlapping = .ok s ∧ s.Waits 1 0 ∧
      ¬ ∃ S : Set (Fin 2), S.Nonempty ∧ ∀ t ∈ S, ∃ u ∈ S, s.Waits t u := by
  have h_eval : (Machine.run (step (Sample.rangeWork.program .posix)) { shared := () }
      Sample.overlapping).toOption.any (fun s =>
        decide ((s.phase 1).awaits = some (Build.posix.lockIndex 4) ∧
          s.owner (Build.posix.lockIndex 4) = some 0)) = true := by decide +kernel
  obtain ⟨s, h_run, h_waits⟩ := Machine.exists_ok_of_any h_eval
  exact ⟨s, h_run, ⟨_, h_waits⟩, (rangeLocking_deadlock_free .posix _ _ _ h_run).1⟩

end IscsiTarget
