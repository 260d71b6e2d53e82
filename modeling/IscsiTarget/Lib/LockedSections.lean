import IscsiTarget.Lib.Run

/-!
# Threads in locked sections

Threads share a state and a family of locks. A thread works through sections: it takes the
locks of the section one by one, in ascending order, works on the shared state, and gives
the locks back one by one. Between any two of these steps every other thread may move, and
so may the environment.

What the work is does not matter here: a `Program` says which locks a section takes and
what its steps do. Whatever it says, on every reachable state

* a lock is owned by the thread that has taken it and not given it back, the locks of a
  thread are in ascending order, and they are those of its section (`Inv`, `inv_of_run`);
* two threads at work have no lock in common (`Inv.eq_of_mem_held`);
* no set of threads waits for itself (`Inv.no_deadlock`): the lock a thread waits for is
  above every lock it holds, and there is a highest lock;
* a thread between two sections holds nothing (`Inv.free_of_held`).

`Alone` is the work of one thread on its section while no other thread moves, with its own
invariant rule.
-/

namespace LockedSections

/-! ### Programs -/

/-- A list in ascending order, the order in which a set of locks is gone
through. -/
structure Ascending (ι : Type*) [LT ι] where
  toList : List ι
  ascending : toList.Pairwise (· < ·)

/-- What threads do: `C` are the sections they can be given, `W` is what a
thread at work keeps to itself, `σ` is what all of them share, and a label from
`ℓ` settles what the step leaves open. -/
structure Program (ι C W σ ℓ : Type*) [LT ι] where
  /-- The locks of a section. -/
  locks : C → Ascending ι
  /-- The work as it begins. -/
  start : C → W
  /-- One step of the work on a section, if it can be taken. -/
  act : ℓ → C → W → σ → Option (W × σ)
  finished : W → Bool
  /-- Whether the thread goes on with its next section. -/
  goesOn : W → Bool
  /-- One step of the environment. -/
  env : ℓ → σ → Option σ

/-- Where a thread is. It goes round: it takes the locks of a section one after
the other, works, and gives them back before the next section begins. -/
inductive Phase (ι C W : Type*)
  | idle
  /-- It has taken some of the locks of the section and goes on with the rest. -/
  | taking (sec : C) (taken todo : List ι)
  | working (sec : C) (held : List ι) (w : W)
  /-- It still has to give these locks back. -/
  | releasing (held : List ι)
  deriving DecidableEq

namespace Phase

variable {ι C W : Type*}

/-- The locks the thread holds. While it takes them they are the ones it has got
so far. -/
def held : Phase ι C W → List ι
  | idle => []
  | taking _ taken _ => taken
  | working _ held _ => held
  | releasing held => held

/-- The locks the thread holds or is going to take. -/
def locks : Phase ι C W → List ι
  | taking _ taken todo => taken ++ todo
  | p => p.held

/-- The lock the thread takes next. -/
def awaits : Phase ι C W → Option ι
  | taking _ _ todo => todo.head?
  | _ => none

/-- The section the thread is in. -/
def sec : Phase ι C W → Option C
  | taking sec _ _ => some sec
  | working sec _ _ => some sec
  | _ => none

end Phase

/-- The state of the whole system: who has which lock, what every thread is
doing and has still to do, and what they share. -/
structure State (Θ ι C W σ : Type*) where
  owner : ι → Option Θ := fun _ => none
  phase : Θ → Phase ι C W := fun _ => .idle
  /-- The sections the thread still has to do. -/
  queue : Θ → List C := fun _ => []
  shared : σ

/-- A step, by the one who takes it. -/
inductive Action (Θ C ℓ : Type*)
  /-- The thread is given a list of sections. -/
  | call (t : Θ) (secs : List C)
  | begin (t : Θ)
  | lock (t : Θ)
  /-- All locks are taken. -/
  | enter (t : Θ)
  | act (t : Θ) (l : ℓ)
  | finish (t : Θ)
  | unlock (t : Θ)
  /-- All locks are given back. -/
  | leave (t : Θ)
  | env (l : ℓ)
  deriving DecidableEq

section Step

variable {Θ ι C W σ ℓ : Type*} [LT ι] [DecidableEq Θ] [DecidableEq ι] (P : Program ι C W σ ℓ)

/-- One step; an error when it cannot be taken in this state. A thread that
waits for a lock is one whose `lock` is an error. -/
def step (s : State Θ ι C W σ) : Action Θ C ℓ → Except Unit (State Θ ι C W σ)
  | .call t secs =>
    match s.phase t, s.queue t with
    | .idle, [] => .ok { s with queue := Function.update s.queue t secs }
    | _, _ => .error ()
  | .begin t =>
    match s.phase t, s.queue t with
    | .idle, sec :: rest =>
      .ok { s with
        phase := Function.update s.phase t (.taking sec [] (P.locks sec).toList)
        queue := Function.update s.queue t rest }
    | _, _ => .error ()
  | .lock t =>
    match s.phase t with
    | .taking sec taken (nr :: todo) =>
      match s.owner nr with
      | none =>
        .ok { s with
          owner := Function.update s.owner nr (some t)
          phase := Function.update s.phase t (.taking sec (taken ++ [nr]) todo) }
      | some _ => .error ()
    | _ => .error ()
  | .enter t =>
    match s.phase t with
    | .taking sec taken [] =>
      .ok { s with phase := Function.update s.phase t (.working sec taken (P.start sec)) }
    | _ => .error ()
  | .act t l =>
    match s.phase t with
    | .working sec held w =>
      match P.act l sec w s.shared with
      | some (w', shared) =>
        .ok { s with phase := Function.update s.phase t (.working sec held w'), shared := shared }
      | none => .error ()
    | _ => .error ()
  | .finish t =>
    match s.phase t with
    | .working _ held w =>
      if P.finished w then
        .ok { s with
          phase := Function.update s.phase t (.releasing held)
          queue := if P.goesOn w then s.queue else Function.update s.queue t [] }
      else .error ()
    | _ => .error ()
  | .unlock t =>
    match s.phase t with
    | .releasing (nr :: held) =>
      .ok { s with
        owner := Function.update s.owner nr none
        phase := Function.update s.phase t (.releasing held) }
    | _ => .error ()
  | .leave t =>
    match s.phase t with
    | .releasing [] => .ok { s with phase := Function.update s.phase t .idle }
    | _ => .error ()
  | .env l =>
    match P.env l s.shared with
    | some shared => .ok { s with shared := shared }
    | none => .error ()

/-- What a step needs, and what it does, with one case for each kind of step.
Invariants are proved by cases on it. -/
inductive Steps (s : State Θ ι C W σ) : Action Θ C ℓ → State Θ ι C W σ → Prop
  | call {t : Θ} {secs : List C} (hphase : s.phase t = .idle) (hqueue : s.queue t = []) :
    Steps s (.call t secs) { s with queue := Function.update s.queue t secs }
  | begin {t : Θ} {sec : C} {rest : List C} (hphase : s.phase t = .idle)
    (hqueue : s.queue t = sec :: rest) :
    Steps s (.begin t) { s with
      phase := Function.update s.phase t (.taking sec [] (P.locks sec).toList)
      queue := Function.update s.queue t rest }
  | lock {t : Θ} {sec : C} {taken todo : List ι} {nr : ι}
    (hphase : s.phase t = .taking sec taken (nr :: todo)) (hfree : s.owner nr = none) :
    Steps s (.lock t) { s with
      owner := Function.update s.owner nr (some t)
      phase := Function.update s.phase t (.taking sec (taken ++ [nr]) todo) }
  | enter {t : Θ} {sec : C} {taken : List ι} (hphase : s.phase t = .taking sec taken []) :
    Steps s (.enter t)
      { s with phase := Function.update s.phase t (.working sec taken (P.start sec)) }
  | act {t : Θ} {l : ℓ} {sec : C} {held : List ι} {w w' : W} {shared : σ}
    (hphase : s.phase t = .working sec held w) (hact : P.act l sec w s.shared = some (w', shared)) :
    Steps s (.act t l)
      { s with phase := Function.update s.phase t (.working sec held w'), shared := shared }
  | finish {t : Θ} {sec : C} {held : List ι} {w : W} (hphase : s.phase t = .working sec held w)
    (hdone : P.finished w = true) :
    Steps s (.finish t) { s with
      phase := Function.update s.phase t (.releasing held)
      queue := if P.goesOn w then s.queue else Function.update s.queue t [] }
  | unlock {t : Θ} {nr : ι} {held : List ι} (hphase : s.phase t = .releasing (nr :: held)) :
    Steps s (.unlock t) { s with
      owner := Function.update s.owner nr none
      phase := Function.update s.phase t (.releasing held) }
  | leave {t : Θ} (hphase : s.phase t = .releasing []) :
    Steps s (.leave t) { s with phase := Function.update s.phase t .idle }
  | env {l : ℓ} {shared : σ} (henv : P.env l s.shared = some shared) :
    Steps s (.env l) { s with shared := shared }

variable {P}

/-- The inversion of `step`. Every invariant is proved by cases on the outcome,
and none of those proofs unfolds `step`. -/
theorem steps_of_step {s s' : State Θ ι C W σ} {a : Action Θ C ℓ} (h : step P s a = .ok s') :
    Steps P s a s' := by
  -- each branch of `step` tests the phase of the thread first, and is left at once when it is
  -- another
  cases a with
  | call t secs =>
    simp only [step] at h
    split at h
    · next hp hq =>
      obtain rfl := Except.ok.inj h
      exact .call hp hq
    · exact nomatch h
  | begin t =>
    simp only [step] at h
    split at h
    · next hp hq =>
      obtain rfl := Except.ok.inj h
      exact .begin hp hq
    · exact nomatch h
  | lock t =>
    simp only [step] at h
    split at h
    · next hp =>
      split at h
      · next hfree =>
        obtain rfl := Except.ok.inj h
        exact .lock hp hfree
      · exact nomatch h
    · exact nomatch h
  | enter t =>
    simp only [step] at h
    split at h
    · next hp =>
      obtain rfl := Except.ok.inj h
      exact .enter hp
    · exact nomatch h
  | act t l =>
    simp only [step] at h
    split at h
    · next hp =>
      split at h
      · next hact =>
        obtain rfl := Except.ok.inj h
        exact .act hp hact
      · exact nomatch h
    · exact nomatch h
  | finish t =>
    simp only [step] at h
    split at h
    · next hp =>
      split at h
      · next hdone =>
        obtain rfl := Except.ok.inj h
        exact .finish hp hdone
      · exact nomatch h
    · exact nomatch h
  | unlock t =>
    simp only [step] at h
    split at h
    · next hp =>
      obtain rfl := Except.ok.inj h
      exact .unlock hp
    · exact nomatch h
  | leave t =>
    simp only [step] at h
    split at h
    · next hp =>
      obtain rfl := Except.ok.inj h
      exact .leave hp
    · exact nomatch h
  | env l =>
    simp only [step] at h
    split at h
    · next henv =>
      obtain rfl := Except.ok.inj h
      exact .env henv
    · exact nomatch h

/-- What `Steps` describes is a step. -/
theorem step_of_steps {s s' : State Θ ι C W σ} {a : Action Θ C ℓ} (h : Steps P s a s') :
    step P s a = .ok s' := by
  cases h with
  | call hphase hqueue => simp only [step, hphase, hqueue]
  | begin hphase hqueue => simp only [step, hphase, hqueue]
  | lock hphase hfree => simp only [step, hphase, hfree]
  | enter hphase => simp only [step, hphase]
  | act hphase hact => simp only [step, hphase, hact]
  | finish hphase hdone => simp only [step, hphase, hdone, if_true]
  | unlock hphase => simp only [step, hphase]
  | leave hphase => simp only [step, hphase]
  | env henv => simp only [step, henv]

end Step

/-! ### Who owns what -/

section Invariant

variable {Θ ι C W σ ℓ : Type*} [LinearOrder ι]

/-- The owner of a lock is the thread that holds it; the locks of a thread are
in ascending order and, in a section, those of the section. -/
structure Inv (P : Program ι C W σ ℓ) (s : State Θ ι C W σ) : Prop where
  owner_iff : ∀ nr t, s.owner nr = some t ↔ nr ∈ (s.phase t).held
  ascending : ∀ t, (s.phase t).locks.Pairwise (· < ·)
  sec_locks : ∀ t sec, (s.phase t).sec = some sec →
    (s.phase t).locks = (P.locks sec).toList

/-- At the start every thread is idle and every lock is free. -/
theorem inv_init (P : Program ι C W σ ℓ) (shared : σ) :
    Inv P ({ shared := shared } : State Θ ι C W σ) where
  owner_iff nr t := by simp [Phase.held]
  ascending t := List.Pairwise.nil
  sec_locks t sec h := nomatch h

namespace Inv

variable {P : Program ι C W σ ℓ} {s : State Θ ι C W σ}

/-- A lock has one owner. -/
theorem eq_of_mem_held (h : Inv P s) {t u : Θ} {nr : ι} (ht : nr ∈ (s.phase t).held)
    (hu : nr ∈ (s.phase u).held) : t = u := by
  rw [← h.owner_iff] at ht hu
  exact Option.some.inj (ht.symm.trans hu)

/-- A thread that holds nothing owns nothing. -/
theorem free_of_held (h : Inv P s) {t : Θ} (ht : (s.phase t).held = []) (nr : ι) :
    s.owner nr ≠ some t := by
  rw [Ne, h.owner_iff, ht]
  exact List.not_mem_nil

/-- A thread at work holds the locks of its section. -/
theorem held_of_working (h : Inv P s) {t : Θ} {sec : C} {held : List ι} {w : W}
    (ht : s.phase t = .working sec held w) : held = (P.locks sec).toList := by
  have h_sec := h.sec_locks t sec (by rw [ht]; rfl)
  rw [ht] at h_sec
  exact h_sec

/-- **Mutual exclusion**: sections with a common lock are not worked on by two
threads. -/
theorem eq_of_common_lock (h : Inv P s) {t u : Θ} {sec sec' : C} {held held' : List ι} {w w' : W}
    (ht : s.phase t = .working sec held w) (hu : s.phase u = .working sec' held' w')
    (hcommon : ∃ nr ∈ (P.locks sec).toList, nr ∈ (P.locks sec').toList) : t = u := by
  obtain ⟨nr, h_t, h_u⟩ := hcommon
  rw [← h.held_of_working ht] at h_t
  rw [← h.held_of_working hu] at h_u
  have h_mem_t : nr ∈ (s.phase t).held := by rw [ht]; exact h_t
  have h_mem_u : nr ∈ (s.phase u).held := by rw [hu]; exact h_u
  exact h.eq_of_mem_held h_mem_t h_mem_u

end Inv

/-- Thread `t` waits for a lock that `u` owns. -/
def State.Waits (s : State Θ ι C W σ) (t u : Θ) : Prop :=
  ∃ nr, (s.phase t).awaits = some nr ∧ s.owner nr = some u

/-- **No set of threads waits for itself.** Of the locks they wait for there
would be a greatest one; its owner waits for a lock that is greater still, since
locks are taken in order. -/
theorem Inv.no_deadlock [Finite ι] {P : Program ι C W σ ℓ} {s : State Θ ι C W σ} (h : Inv P s) :
    ¬ ∃ S : Set Θ, S.Nonempty ∧ ∀ t ∈ S, ∃ u ∈ S, s.Waits t u := by
  rintro ⟨S, ⟨t₀, ht₀⟩, hS⟩
  -- the highest lock that a thread of the set waits for
  obtain ⟨nr, ⟨t, ht, h_nr⟩, h_max⟩ := (wellFounded_gt : WellFounded fun i j : ι => i > j).has_min
    {nr | ∃ t ∈ S, (s.phase t).awaits = some nr} (by
      obtain ⟨-, -, nr, h_nr, -⟩ := hS t₀ ht₀
      exact ⟨nr, t₀, ht₀, h_nr⟩)
  obtain ⟨u, hu, nr', h_nr', h_owner⟩ := hS t ht
  obtain rfl := Option.some.inj (h_nr.symm.trans h_nr')
  -- its owner waits too, for a higher one
  obtain ⟨-, -, nr₂, h_nr₂, -⟩ := hS u hu
  have h_held := (h.owner_iff nr u).mp h_owner
  have h_asc := h.ascending u
  refine h_max nr₂ ⟨u, hu, h_nr₂⟩ ?_
  cases h_phase : s.phase u with
  | taking sec taken todo =>
    rw [h_phase] at h_held h_asc h_nr₂
    obtain ⟨rest, rfl⟩ : ∃ rest, todo = nr₂ :: rest := by
      cases todo with
      | nil => exact absurd h_nr₂ (by simp [Phase.awaits])
      | cons a rest => exact ⟨rest, by rw [Option.some.inj h_nr₂]⟩
    exact (List.pairwise_append.mp h_asc).2.2 nr h_held nr₂ List.mem_cons_self
  | idle => rw [h_phase] at h_nr₂; exact nomatch h_nr₂
  | working sec held w => rw [h_phase] at h_nr₂; exact nomatch h_nr₂
  | releasing held => rw [h_phase] at h_nr₂; exact nomatch h_nr₂

variable [DecidableEq Θ] {P : Program ι C W σ ℓ}

/-- A step that keeps the locks of its thread. Nothing in the invariant depends
on the queues or on what is shared. -/
theorem Inv.update {s : State Θ ι C W σ} (h : Inv P s) {t : Θ} {p : Phase ι C W}
    (hheld : p.held = (s.phase t).held) (hasc : p.locks.Pairwise (· < ·))
    (hsec : ∀ sec, p.sec = some sec → p.locks = (P.locks sec).toList) (queue : Θ → List C)
    (shared : σ) :
    Inv P { s with phase := Function.update s.phase t p, queue := queue, shared := shared } where
  -- the thread holds what it held, and the others are where they were
  owner_iff nr u := by
    by_cases hu : u = t
    · subst hu
      simp only [Function.update_self, hheld]
      exact h.owner_iff nr u
    · simp only [Function.update_of_ne hu]
      exact h.owner_iff nr u
  ascending u := by
    by_cases hu : u = t
    · subst hu
      simpa only [Function.update_self] using hasc
    · simpa only [Function.update_of_ne hu] using h.ascending u
  sec_locks u := by
    by_cases hu : u = t
    · subst hu
      simpa only [Function.update_self] using hsec
    · simpa only [Function.update_of_ne hu] using h.sec_locks u

/-- **Every step keeps the invariant.** Only taking a lock and giving one back
change the owners, and both change one owner, that of a lock the thread comes to
hold or held. -/
theorem inv_step {s s' : State Θ ι C W σ} {a : Action Θ C ℓ} (h : Inv P s)
    (hstep : step P s a = .ok s') : Inv P s' := by
  -- only `lock` and `unlock` change an owner; all the others move the phase of one thread with its
  -- locks as they are, which is `Inv.update`
  cases steps_of_step hstep with
  | call hphase hqueue => exact ⟨h.owner_iff, h.ascending, h.sec_locks⟩
  | env henv => exact ⟨h.owner_iff, h.ascending, h.sec_locks⟩
  | @begin t sec rest hphase hqueue =>
    refine h.update (p := .taking sec [] _) ?_ (P.locks sec).ascending ?_ _ s.shared
    · rw [hphase]
      rfl
    · intro sec' hsec'
      obtain rfl := Option.some.inj hsec'
      rfl
  | @enter t sec taken hphase =>
    have h_asc := h.ascending t
    have h_sec := h.sec_locks t
    rw [hphase] at h_asc h_sec
    refine h.update (p := .working sec taken (P.start sec)) ?_ ?_ ?_ s.queue s.shared
    · rw [hphase]
      rfl
    · simpa [Phase.locks, Phase.held] using h_asc
    · intro sec' hsec'
      simpa [Phase.locks, Phase.held] using h_sec sec' hsec'
  | @act t l sec held w w' shared hphase hact =>
    have h_asc := h.ascending t
    have h_sec := h.sec_locks t
    rw [hphase] at h_asc h_sec
    refine h.update (p := .working sec held w') ?_ h_asc h_sec s.queue shared
    rw [hphase]
    rfl
  | @finish t sec held w hphase hdone =>
    have h_asc := h.ascending t
    rw [hphase] at h_asc
    refine h.update (p := .releasing held) ?_ h_asc (fun _ h => nomatch h) _ s.shared
    rw [hphase]
    rfl
  | @leave t hphase =>
    refine h.update (p := .idle) ?_ List.Pairwise.nil (fun _ h => nomatch h) s.queue s.shared
    rw [hphase]
    rfl
  | @lock t sec taken todo nr hphase hfree =>
    have h_asc := h.ascending t
    have h_sec := h.sec_locks t
    rw [hphase] at h_asc h_sec
    -- the lock moves from what is to be taken to what is taken: the list of both stays the same
    have h_same : (Phase.taking sec (taken ++ [nr]) todo : Phase ι C W).locks =
        (Phase.taking sec taken (nr :: todo) : Phase ι C W).locks := by
      simp [Phase.locks]
    constructor
    · intro nr' u
      by_cases hu : u = t
      · subst hu
        by_cases hnr : nr' = nr
        · subst hnr
          simp [Phase.held]
        · have h_own := h.owner_iff nr' u
          rw [hphase] at h_own
          simpa [Function.update_of_ne hnr, Phase.held, hnr] using h_own
      · have h_own := h.owner_iff nr' u
        dsimp only
        rw [Function.update_of_ne hu]
        by_cases hnr : nr' = nr
        · -- the lock was free, so no other thread holds it
          subst hnr
          rw [hfree] at h_own
          simp only [Function.update_self, Option.some.injEq, Ne.symm hu, false_iff]
          simpa using h_own
        · rwa [Function.update_of_ne hnr]
    · intro u
      by_cases hu : u = t
      · subst hu
        simpa only [Function.update_self, h_same] using h_asc
      · simpa only [Function.update_of_ne hu] using h.ascending u
    · intro u
      by_cases hu : u = t
      · subst hu
        simp only [Function.update_self, h_same]
        exact h_sec
      · simpa only [Function.update_of_ne hu] using h.sec_locks u
  | @unlock t nr held hphase =>
    have h_asc := h.ascending t
    rw [hphase] at h_asc
    -- the locks are given back in the order they were taken, the first one first
    obtain ⟨h_above, h_rest⟩ := List.pairwise_cons.mp h_asc
    have h_mine : s.owner nr = some t := by
      rw [h.owner_iff, hphase]
      exact List.mem_cons_self
    constructor
    · intro nr' u
      by_cases hu : u = t
      · subst hu
        have h_own := h.owner_iff nr' u
        rw [hphase] at h_own
        by_cases hnr : nr' = nr
        · -- no lock occurs twice
          subst hnr
          simp only [Function.update_self, Phase.held, reduceCtorEq, false_iff]
          exact fun hmem => lt_irrefl _ (h_above _ hmem)
        · simpa [Function.update_of_ne hnr, Phase.held, hnr] using h_own
      · have h_own := h.owner_iff nr' u
        dsimp only
        rw [Function.update_of_ne hu]
        by_cases hnr : nr' = nr
        · subst hnr
          rw [h_mine] at h_own
          simp only [Function.update_self, reduceCtorEq, false_iff]
          exact fun hmem => hu (Option.some.inj (h_own.mpr hmem)).symm
        · rwa [Function.update_of_ne hnr]
    · intro u
      by_cases hu : u = t
      · subst hu
        simp only [Function.update_self]
        exact h_rest
      · simpa only [Function.update_of_ne hu] using h.ascending u
    · intro u
      by_cases hu : u = t
      · subst hu
        simp [Phase.sec]
      · simpa only [Function.update_of_ne hu] using h.sec_locks u

/-- Every reachable state keeps the invariant. -/
theorem inv_of_run {shared : σ} {as : List (Action Θ C ℓ)} {s : State Θ ι C W σ}
    (hrun : Machine.run (step P) { shared := shared } as = .ok s) : Inv P s :=
  Machine.run_induction (P := fun _ _ => True) (fun _ _ _ h _ hstep => inv_step h hstep) as _ _
    (inv_init P shared) (Machine.along_of_forall (fun _ _ => trivial) _ _) hrun

/-! ### Which sections a thread is given -/

/-- What a thread has to do, and what it does, satisfies `Q`. -/
def SectionsOk (Q : Θ → C → Prop) (s : State Θ ι C W σ) : Prop :=
  ∀ t, (∀ sec ∈ s.queue t, Q t sec) ∧ ∀ sec, (s.phase t).sec = some sec → Q t sec

/-- The sections of a call satisfy `Q`. -/
def CallsOk (Q : Θ → C → Prop) : Action Θ C ℓ → Prop
  | .call t secs => ∀ sec ∈ secs, Q t sec
  | _ => True

omit [LinearOrder ι] [DecidableEq Θ] in
theorem sectionsOk_init (Q : Θ → C → Prop) (shared : σ) :
    SectionsOk Q ({ shared := shared } : State Θ ι C W σ) :=
  fun _ => ⟨by simp, fun _ h => nomatch h⟩

omit [LinearOrder ι] in
/-- A step that puts a thread into another phase and leaves it these sections to
do. Owners and what is shared do not matter. -/
theorem SectionsOk.update {Q : Θ → C → Prop} {s : State Θ ι C W σ} (h : SectionsOk Q s) {t : Θ}
    {p : Phase ι C W} {secs : List C} (hsec : ∀ sec, p.sec = some sec → Q t sec)
    (hsecs : ∀ sec ∈ secs, Q t sec) (owner : ι → Option Θ) (shared : σ) :
    SectionsOk Q
      { owner := owner
        phase := Function.update s.phase t p
        queue := Function.update s.queue t secs
        shared := shared } := by
  intro u
  by_cases hu : u = t
  · subst hu
    simpa only [Function.update_self] using And.intro hsecs hsec
  · simpa only [Function.update_of_ne hu] using h u

/-- **Every step keeps to the sections that are given.** A section gets into a
queue by `call`, and into a phase out of the queue. -/
theorem sectionsOk_step {Q : Θ → C → Prop} {s s' : State Θ ι C W σ} {a : Action Θ C ℓ}
    (h : SectionsOk Q s) (hcall : CallsOk Q a) (hstep : step P s a = .ok s') :
    SectionsOk Q s' := by
  -- most steps leave a thread its section, or take it away
  have h_update {t : Θ} {p : Phase ι C W} (owner : ι → Option Θ) (shared : σ)
      (hsec : ∀ sec, p.sec = some sec → (s.phase t).sec = some sec) :
      SectionsOk Q
        { owner := owner, phase := Function.update s.phase t p, queue := s.queue,
          shared := shared } := by
    have h_same := h.update (fun sec hs => (h t).2 sec (hsec sec hs)) (h t).1 owner shared
    rwa [Function.update_eq_self] at h_same
  cases steps_of_step hstep with
  | @call t secs hphase hqueue =>
    have h_same := h.update (p := s.phase t) (h t).2 hcall s.owner s.shared
    rwa [Function.update_eq_self] at h_same
  | env henv => exact h
  -- the next section comes off the queue, which was given
  | @begin t sec rest hphase hqueue =>
    have h_queue := (h t).1
    rw [hqueue] at h_queue
    refine h.update (fun sec' hs => ?_) (fun sec' hs => h_queue sec' (List.mem_cons_of_mem _ hs))
      s.owner s.shared
    obtain rfl := Option.some.inj hs
    exact h_queue _ List.mem_cons_self
  | lock hphase hfree => exact h_update _ _ (by rw [hphase]; exact fun _ h => h)
  | enter hphase => exact h_update _ _ (by rw [hphase]; exact fun _ h => h)
  | act hphase hact => exact h_update _ _ (by rw [hphase]; exact fun _ h => h)
  | @finish t sec held w hphase hdone =>
    split
    · exact h_update (p := .releasing held) _ _ (fun _ h => nomatch h)
    · exact h.update (p := .releasing held) (fun _ h => nomatch h) (by simp) s.owner s.shared
  | unlock hphase => exact h_update _ _ (fun _ h => nomatch h)
  | leave hphase => exact h_update _ _ (fun _ h => nomatch h)

end Invariant

/-! ### A thread that works alone -/

section Alone

variable {ι C W σ ℓ : Type*} [LT ι] {P : Program ι C W σ ℓ} {sec : C} {allowed : ℓ → W → Prop}

variable (P sec allowed) in
/-- The work on a section while nobody but the environment moves, with steps of
the allowed kind only. -/
inductive Alone : W → σ → W → σ → Prop
  | refl (w : W) (s : σ) : Alone w s w s
  | act {l : ℓ} {w w' w'' : W} {s s' s'' : σ} (h_allowed : allowed l w)
    (h_act : P.act l sec w s = some (w', s')) (rest : Alone w' s' w'' s'') : Alone w s w'' s''
  | env {l : ℓ} {w w'' : W} {s s' s'' : σ} (h_allowed : allowed l w)
    (h_env : P.env l s = some s') (rest : Alone w s' w'' s'') : Alone w s w'' s''

variable {w w' w'' : W} {s s' s'' : σ}

theorem Alone.trans (h : Alone P sec allowed w s w' s') (h' : Alone P sec allowed w' s' w'' s'') :
    Alone P sec allowed w s w'' s'' := by
  induction h with
  | refl w s => exact h'
  | act h_allowed h_act rest ih => exact .act h_allowed h_act (ih h')
  | env h_allowed h_env rest ih => exact .env h_allowed h_env (ih h')

theorem Alone.mono (h : Alone P sec allowed w s w' s') {allowed' : ℓ → W → Prop}
    (h_mono : ∀ l w, allowed l w → allowed' l w) : Alone P sec allowed' w s w' s' := by
  induction h with
  | refl w s => exact .refl w s
  | act h_allowed h_act rest ih => exact .act (h_mono _ _ h_allowed) h_act ih
  | env h_allowed h_env rest ih => exact .env (h_mono _ _ h_allowed) h_env ih

/-- **The invariant rule**: what every step preserves holds to the end. -/
theorem Alone.invariant (h : Alone P sec allowed w s w' s') {I : W → σ → Prop}
    (h_act : ∀ l w s w' s', I w s → allowed l w → P.act l sec w s = some (w', s') → I w' s')
    (h_env : ∀ l w s s', I w s → allowed l w → P.env l s = some s' → I w s') (h_init : I w s) :
    I w' s' := by
  induction h with
  | refl w s => exact h_init
  | act h_allowed h_step rest ih => exact ih (h_act _ _ _ _ _ h_init h_allowed h_step)
  | env h_allowed h_step rest ih => exact ih (h_env _ _ _ _ h_init h_allowed h_step)

end Alone

end LockedSections
