import IscsiTarget.Lib.Run

/-!
# Two machines side by side

* `run_simulation` is the lock-step rule: when every step of the one machine is, through an
  abstraction, the step of the other one, so are their runs. The invariant may look at the
  inputs to come.
* `stepWhile` is a machine that goes on while a flag is set, and then stands still.
  `run_stepWhile` says that it has taken the first inputs and left the others.
-/

namespace Machine

variable {σ τ ι κ ε : Type*}

/-- **Lock-step simulation.** Every input `k` of the second machine is the input
`tick k` of the first one. -/
theorem run_simulation {step₁ : σ → ι → Except ε σ} {step₂ : τ → κ → Except ε τ} (abs : σ → τ)
    (tick : κ → ι) {I : List κ → σ → Prop}
    (hstep : ∀ k ks s, I (k :: ks) s → (step₁ s (tick k)).map abs = step₂ (abs s) k ∧
      ∀ s', step₁ s (tick k) = .ok s' → I ks s') :
    ∀ (ks : List κ) (s : σ), I ks s →
      (run step₁ s (ks.map tick)).map abs = run step₂ (abs s) ks := by
  intro ks
  induction ks with
  | nil => intro s _; rfl
  | cons k ks ih =>
    intro s hI
    obtain ⟨h_eq, h_next⟩ := hstep k ks s hI
    rw [List.map_cons, run, run, ← h_eq]
    cases h : step₁ s (tick k) with
    | error e => rfl
    | ok m => exact ih m (h_next m h)

/-- The machine that takes inputs while `ok` is set. -/
def stepWhile (ok : σ → Bool) (step : σ → ι → Except ε σ) (s : σ) (i : ι) : Except ε σ :=
  if ok s = true then step s i else .ok s

variable {ok : σ → Bool} {step : σ → ι → Except ε σ}

theorem run_stepWhile_of_not {s : σ} (h : ok s = false) (is : List ι) :
    run (stepWhile ok step) s is = .ok s := by
  induction is with
  | nil => rfl
  | cons i is ih =>
    have h_step : stepWhile ok step s i = .ok s := by simp [stepWhile, h]
    rw [run_cons_ok h_step, ih]

/-- **A machine that stops** has taken the first `n` inputs, all of them if it
still goes on. What comes after them it does not look at. -/
theorem run_stepWhile {is : List ι} {s s' : σ} (h : run (stepWhile ok step) s is = .ok s') :
    ∃ n ≤ is.length, run step s (is.take n) = .ok s' ∧ (ok s' = true → n = is.length) := by
  induction is generalizing s with
  | nil => exact ⟨0, le_rfl, h, fun _ => rfl⟩
  | cons i is ih =>
    by_cases h_ok : ok s = true
    · obtain ⟨m, hm, h_rest⟩ := run_cons_eq_ok.mp h
      rw [stepWhile, if_pos h_ok] at hm
      obtain ⟨n, hn, h_run, h_all⟩ := ih h_rest
      refine ⟨n + 1, Nat.succ_le_succ hn, ?_, fun h => congrArg (· + 1) (h_all h)⟩
      rw [List.take_succ_cons, run_cons_ok hm, h_run]
    · rw [run_stepWhile_of_not (Bool.not_eq_true _ ▸ h_ok)] at h
      obtain rfl := Except.ok.inj h
      exact ⟨0, Nat.zero_le _, rfl, fun h => absurd h h_ok⟩

/-- Inputs that the plain machine takes to the end, the machine that may stop
takes too. -/
theorem exists_run_stepWhile {is : List ι} {s s' : σ} (h : run step s is = .ok s') :
    ∃ s'', run (stepWhile ok step) s is = .ok s'' := by
  induction is generalizing s with
  | nil => exact ⟨s, rfl⟩
  | cons i is ih =>
    obtain ⟨m, hm, h_rest⟩ := run_cons_eq_ok.mp h
    by_cases h_ok : ok s = true
    · obtain ⟨s'', h_run⟩ := ih h_rest
      exact ⟨s'', by rw [run_cons_ok (by rw [stepWhile, if_pos h_ok, hm]), h_run]⟩
    · exact ⟨s, run_stepWhile_of_not (Bool.not_eq_true _ ▸ h_ok) _⟩

end Machine
