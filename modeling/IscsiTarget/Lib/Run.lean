import Mathlib

/-!
# Runs of a machine that may get stuck

A machine takes one input at a time: `step s i` is the next state, or an error
after which it does not continue. `run` feeds it a list of inputs.

* `Along step P s is` says that `P` holds of every state the run passes through
  and the input it gets there; it is the way to put a condition on the steps of
  a run.
* `run_induction` is the invariant rule: what every step under the condition
  preserves, a run whose steps meet the condition preserves.
  `run_rest_induction` is the same for an invariant that looks at the inputs to come.
* `run_ok_of_step` and `run_ok_of_mem` are progress: a machine that never gets
  stuck runs to the end.
-/

namespace Machine

variable {σ ι ε : Type*}

/-- Feed the inputs one by one. The first step that fails ends the run, and its
error is the outcome. -/
def run (step : σ → ι → Except ε σ) : σ → List ι → Except ε σ
  | s, [] => .ok s
  | s, i :: is =>
    match step s i with
    | .ok s' => run step s' is
    | .error e => .error e

/-- `P` holds at every state the run reaches, with the input it takes there. -/
def Along (step : σ → ι → Except ε σ) (P : σ → ι → Prop) : σ → List ι → Prop
  | _, [] => True
  | s, i :: is => P s i ∧ ∀ s', step s i = .ok s' → Along step P s' is

variable {step : σ → ι → Except ε σ}

@[simp] theorem run_nil (s : σ) : run step s [] = .ok s := rfl

theorem run_cons_ok {s s' : σ} {i : ι} {is : List ι} (h : step s i = .ok s') :
    run step s (i :: is) = run step s' is := by
  rw [run, h]

/-- A completed run takes a first step and completes from there. -/
theorem run_cons_eq_ok {s s' : σ} {i : ι} {is : List ι} :
    run step s (i :: is) = .ok s' ↔ ∃ m, step s i = .ok m ∧ run step m is = .ok s' := by
  rw [run]
  cases h : step s i with
  | ok m => simp
  | error e => simp

/-- Running two lists one after the other. A run that goes well has gone well
through the first of them. -/
theorem run_append_eq_ok {s s' : σ} {is js : List ι} :
    run step s (is ++ js) = .ok s' ↔
      ∃ m, run step s is = .ok m ∧ run step m js = .ok s' := by
  induction is generalizing s with
  | nil => simp
  | cons i is ih =>
    rw [List.cons_append, run_cons_eq_ok]
    constructor
    · rintro ⟨m, hm, hrest⟩
      obtain ⟨m', hm', hj⟩ := ih.mp hrest
      exact ⟨m', run_cons_eq_ok.mpr ⟨m, hm, hm'⟩, hj⟩
    · rintro ⟨m', hm', hj⟩
      obtain ⟨m, hm, hi⟩ := run_cons_eq_ok.mp hm'
      exact ⟨m, hm, ih.mpr ⟨m', hi, hj⟩⟩

/-- A condition that can be decided at every step can be decided along a run. -/
instance decidableAlong {P : σ → ι → Prop} [∀ s i, Decidable (P s i)] :
    ∀ (s : σ) (is : List ι), Decidable (Along step P s is)
  | _, [] => .isTrue trivial
  | s, i :: is =>
    match h : step s i with
    | .ok m =>
      have : Decidable (Along step P m is) := decidableAlong m is
      decidable_of_iff (P s i ∧ Along step P m is)
        (and_congr_right fun _ => ⟨fun hm _ h' => Except.ok.inj (h.symm.trans h') ▸ hm,
          fun hall => hall m h⟩)
    | .error _ =>
      decidable_of_iff (P s i) ⟨fun hp => ⟨hp, fun _ h' => nomatch h.symm.trans h'⟩, And.left⟩

@[simp] theorem along_nil (P : σ → ι → Prop) (s : σ) : Along step P s [] := trivial

/-- A condition that holds everywhere holds along every run. -/
theorem along_of_forall {P : σ → ι → Prop} (h : ∀ s i, P s i) (s : σ) (is : List ι) :
    Along step P s is := by
  induction is generalizing s with
  | nil => trivial
  | cons i is ih => exact ⟨h s i, fun s' _ => ih s'⟩

/-- Two conditions that come to the same at every step. -/
theorem along_congr {P Q : σ → ι → Prop} (h : ∀ s i, P s i ↔ Q s i) (s : σ) (is : List ι) :
    Along step P s is ↔ Along step Q s is := by
  induction is generalizing s with
  | nil => exact Iff.rfl
  | cons i is ih => exact and_congr (h s i) (forall₂_congr fun s' _ => ih s')

/-- Two conditions that come to the same at every step that is taken. -/
theorem along_congr_of_run {P Q : σ → ι → Prop}
    (h : ∀ s i s', step s i = .ok s' → (P s i ↔ Q s i)) {s s' : σ} {is : List ι}
    (h_run : run step s is = .ok s') : Along step P s is ↔ Along step Q s is := by
  induction is generalizing s with
  | nil => exact Iff.rfl
  | cons i is ih =>
    obtain ⟨m, h_step, h_rest⟩ := run_cons_eq_ok.mp h_run
    refine and_congr (h s i m h_step) (forall₂_congr fun m' h_m' => ?_)
    obtain rfl := Except.ok.inj (h_step.symm.trans h_m')
    exact ih h_rest

theorem Along.mono {P Q : σ → ι → Prop} (h : ∀ s i, P s i → Q s i) {s : σ} {is : List ι}
    (hal : Along step P s is) : Along step Q s is := by
  induction is generalizing s with
  | nil => trivial
  | cons i is ih => exact ⟨h s i hal.1, fun s' hs' => ih (hal.2 s' hs')⟩

/-- A condition on the steps, and one on the inputs alone. -/
theorem Along.and_mem {P : σ → ι → Prop} {J : ι → Prop} {s : σ} {is : List ι}
    (hal : Along step P s is) (hJ : ∀ i ∈ is, J i) : Along step (fun s i => P s i ∧ J i) s is := by
  induction is generalizing s with
  | nil => trivial
  | cons i is ih =>
    exact ⟨⟨hal.1, hJ i List.mem_cons_self⟩,
      fun s' hs' => ih (hal.2 s' hs') fun j hj => hJ j (List.mem_cons_of_mem i hj)⟩

/-- **The invariant rule.** What a step under the condition `P` preserves, a
completed run whose steps meet `P` preserves. -/
theorem run_induction {P : σ → ι → Prop} {I : σ → Prop}
    (hstep : ∀ s i s', I s → P s i → step s i = .ok s' → I s') :
    ∀ (is : List ι) (s s' : σ), I s → Along step P s is → run step s is = .ok s' → I s' := by
  intro is
  induction is with
  | nil =>
    intro s s' hI _ hrun
    obtain rfl : s = s' := Except.ok.inj hrun
    exact hI
  | cons i is ih =>
    intro s s' hI hal hrun
    obtain ⟨m, hm, hrest⟩ := run_cons_eq_ok.mp hrun
    exact ih m s' (hstep s i m hI hal.1 hm) (hal.2 m hm) hrest

/-- An invariant of the steps, read along the run. -/
theorem along_of_invariant {P Q : σ → ι → Prop} {I : σ → Prop}
    (hstep : ∀ s i s', I s → P s i → step s i = .ok s' → I s')
    (hread : ∀ s i, I s → P s i → Q s i) :
    ∀ (is : List ι) (s : σ), I s → Along step P s is → Along step Q s is := by
  intro is
  induction is with
  | nil => intro s _ _; trivial
  | cons i is ih =>
    intro s hI hal
    exact ⟨hread s i hI hal.1,
      fun m hm => ih m (hstep s i m hI hal.1 hm) (hal.2 m hm)⟩

/-- **The invariant rule with the inputs still to come.** What holds of a state
and the inputs it is going to get holds in the end of the state and none. -/
theorem run_rest_induction {I : List ι → σ → Prop}
    (hstep : ∀ i is s s', I (i :: is) s → step s i = .ok s' → I is s') :
    ∀ (is : List ι) (s s' : σ), I is s → run step s is = .ok s' → I [] s' := by
  intro is
  induction is with
  | nil =>
    intro s s' hI hrun
    obtain rfl : s = s' := Except.ok.inj hrun
    exact hI
  | cons i is ih =>
    intro s s' hI hrun
    obtain ⟨m, hm, hrest⟩ := run_cons_eq_ok.mp hrun
    exact ih m s' (hstep i is s m hI hm) hrest

/-- Inputs that are taken in every state are all taken. -/
theorem run_ok_of_mem {is : List ι} (h : ∀ i ∈ is, ∀ s, ∃ s', step s i = .ok s') (s : σ) :
    ∃ s', run step s is = .ok s' := by
  induction is generalizing s with
  | nil => exact ⟨s, rfl⟩
  | cons i is ih =>
    obtain ⟨m, hm⟩ := h i List.mem_cons_self s
    obtain ⟨s', hs'⟩ := ih (fun j hj => h j (List.mem_cons_of_mem i hj)) m
    exact ⟨s', by rw [run_cons_ok hm, hs']⟩

/-- **What a run leaves in its trace.** `Q h es` says that the events `es` are
good ones after the events `h`. When every step says exactly under which
condition the events it adds are good, the events of a run are good exactly when
all its steps meet their condition. -/
theorem trace_iff_along {α : Type*} (ev : σ → List α) {I : σ → Prop} {J : ι → Prop}
    {P : σ → ι → Prop} {Q : List α → List α → Prop} (hnil : ∀ h, Q h [])
    (happend : ∀ h es fs, Q h (es ++ fs) ↔ Q h es ∧ Q (h ++ es) fs)
    (hstep : ∀ s i, I s → J i → ∃ s' evs, step s i = .ok s' ∧ ev s' = ev s ++ evs ∧
      (Q (ev s) evs ↔ P s i) ∧ I s') :
    ∀ (is : List ι) (s : σ), I s → (∀ i ∈ is, J i) → ∃ s' evs, run step s is = .ok s' ∧
      ev s' = ev s ++ evs ∧ (Q (ev s) evs ↔ Along step P s is) := by
  intro is
  induction is with
  | nil => intro s _ _; exact ⟨s, [], rfl, by simp, by simp [hnil]⟩
  | cons i is ih =>
    intro s hI hJ
    obtain ⟨m, es, hm, h_es, h_iff, hIm⟩ := hstep s i hI (hJ i List.mem_cons_self)
    obtain ⟨s', fs, hs', h_fs, h_iff'⟩ :=
      ih m hIm (fun j hj => hJ j (List.mem_cons_of_mem i hj))
    refine ⟨s', es ++ fs, by rw [run_cons_ok hm, hs'], by rw [h_fs, h_es, List.append_assoc], ?_⟩
    rw [happend, h_iff, ← h_es, h_iff']
    constructor
    · rintro ⟨hP, hal⟩
      refine ⟨hP, fun m' hm' => ?_⟩
      obtain rfl := Except.ok.inj (hm.symm.trans hm')
      exact hal
    · rintro ⟨hP, hal⟩
      exact ⟨hP, hal m hm⟩

/-- The case of events that are good on their own. -/
theorem forall_events_iff_along {α : Type*} (ev : σ → List α) {I : σ → Prop} {J : ι → Prop}
    {P : σ → ι → Prop} {R : α → Prop}
    (hstep : ∀ s i, I s → J i → ∃ s' evs, step s i = .ok s' ∧ ev s' = ev s ++ evs ∧
      ((∀ e ∈ evs, R e) ↔ P s i) ∧ I s') :
    ∀ (is : List ι) (s : σ), I s → (∀ i ∈ is, J i) → ∃ s' evs, run step s is = .ok s' ∧
      ev s' = ev s ++ evs ∧ ((∀ e ∈ evs, R e) ↔ Along step P s is) :=
  trace_iff_along ev (Q := fun _ es => ∀ e ∈ es, R e) (by simp)
    (fun _ _ _ => List.forall_mem_append) hstep

/-! ### Ghost state -/

/-- The machine with a second component that only watches: `upd` computes it
from the state before a step, the input and the state after. -/
def withGhost {γ : Type*} (step : σ → ι → Except ε σ) (upd : σ → ι → σ → γ → γ) :
    σ × γ → ι → Except ε (σ × γ) := fun s i =>
  (step s.1 i).map fun s' => (s', upd s.1 i s' s.2)

theorem withGhost_eq_ok {γ : Type*} {upd : σ → ι → σ → γ → γ} {s s' : σ × γ} {i : ι} :
    withGhost step upd s i = .ok s' ↔ step s.1 i = .ok s'.1 ∧ s'.2 = upd s.1 i s'.1 s.2 := by
  obtain ⟨s', g'⟩ := s'
  unfold withGhost
  cases h : step s.1 i with
  | ok m =>
    simp only [Except.map, Except.ok.injEq, Prod.mk.injEq]
    constructor
    · rintro ⟨rfl, rfl⟩
      exact ⟨rfl, rfl⟩
    · rintro ⟨rfl, rfl⟩
      exact ⟨rfl, rfl⟩
  | error e => simp [Except.map]

/-- **The ghost only watches**: every run can be watched. -/
theorem run_withGhost {γ : Type*} (upd : σ → ι → σ → γ → γ) {is : List ι} {s s' : σ}
    (h : run step s is = .ok s') (g : γ) :
    ∃ g', run (withGhost step upd) (s, g) is = .ok (s', g') := by
  induction is generalizing s g with
  | nil =>
    obtain rfl : s = s' := Except.ok.inj h
    exact ⟨g, rfl⟩
  | cons i is ih =>
    obtain ⟨m, hm, hrest⟩ := run_cons_eq_ok.mp h
    obtain ⟨g', hg'⟩ := ih hrest (upd s i m g)
    exact ⟨g', run_cons_eq_ok.mpr ⟨(m, upd s i m g), withGhost_eq_ok.mpr ⟨hm, rfl⟩, hg'⟩⟩

/-! ### Evaluation -/

/-- A computation that can be evaluated, and what can be decided about its
result. -/
theorem exists_ok_of_any {P : σ → Prop} [DecidablePred P] {r : Except ε σ}
    (h : r.toOption.any (fun s => decide (P s)) = true) : ∃ s, r = .ok s ∧ P s := by
  cases r with
  | ok s => exact ⟨s, rfl, by simpa [Except.toOption] using h⟩
  | error e => simp [Except.toOption] at h

end Machine
