import Mathlib

/-!
# Computations that leave a trace

A `Traced` computation gives a result or an error, and the list of the events that led to it.
What happened before an error stays in the list. A property of events that all the parts of a
computation have is one of the whole (`All.bind`).
-/

/-- The events of a computation, in order, and what it ends with. -/
structure Traced (E ε : Type*) (α : Type) where
  events : List E
  result : Except ε α

namespace Traced

variable {E ε : Type*} {α β : Type}

protected def pure (a : α) : Traced E ε α := ⟨[], .ok a⟩

protected def bind (x : Traced E ε α) (f : α → Traced E ε β) : Traced E ε β :=
  match x.result with
  | .error e => ⟨x.events, .error e⟩
  | .ok a => ⟨x.events ++ (f a).events, (f a).result⟩

instance : Monad (Traced E ε) where
  pure := Traced.pure
  bind := Traced.bind

/-- One event. -/
def emit (e : E) : Traced E ε Unit := ⟨[e], .ok ()⟩

/-- An error. -/
def fault (e : ε) : Traced E ε α := ⟨[], .error e⟩

/-- Events in front of a computation. -/
def after (events : List E) (x : Traced E ε α) : Traced E ε α := ⟨events ++ x.events, x.result⟩

@[simp] theorem events_pure (a : α) : (pure a : Traced E ε α).events = [] := rfl

@[simp] theorem result_pure (a : α) : (pure a : Traced E ε α).result = .ok a := rfl

theorem bind_of_ok {x : Traced E ε α} {a : α} (h : x.result = .ok a) (f : α → Traced E ε β) :
    x >>= f = after x.events (f a) := by
  show Traced.bind x f = _
  rw [Traced.bind, h]
  rfl

theorem bind_of_error {x : Traced E ε α} {e : ε} (h : x.result = .error e)
    (f : α → Traced E ε β) : x >>= f = ⟨x.events, .error e⟩ := by
  show Traced.bind x f = _
  rw [Traced.bind, h]

theorem emit_bind (e : E) (f : Unit → Traced E ε β) : emit e >>= f = after [e] (f ()) := rfl

theorem result_bind (x : Traced E ε α) (f : α → Traced E ε β) :
    (x >>= f).result = x.result >>= fun a => (f a).result := by
  cases h : x.result with
  | error e =>
    rw [bind_of_error h]
    rfl
  | ok a =>
    rw [bind_of_ok h]
    rfl

/-- A computation that goes through has got through its first step. -/
theorem result_bind_eq_ok {x : Traced E ε α} {f : α → Traced E ε β} {b : β}
    (h : (x >>= f).result = .ok b) : ∃ a, x.result = .ok a ∧ (f a).result = .ok b := by
  cases h_x : x.result with
  | error e =>
    rw [bind_of_error h_x] at h
    cases h
  | ok a =>
    rw [bind_of_ok h_x] at h
    exact ⟨a, rfl, h⟩

/-- **Simulation.** A traced computation whose steps give what the steps of
another one give, seen through `u` and `v`, gives what that one gives. -/
theorem map_result_bind {γ δ : Type} {x : Traced E ε α} {f : α → Traced E ε β} {u : α → γ}
    {v : β → δ} {y : Except ε γ} {g : γ → Except ε δ} (h : x.result.map u = y)
    (h_f : ∀ a, x.result = .ok a → (f a).result.map v = g (u a)) :
    (x >>= f).result.map v = y >>= g := by
  rw [result_bind, ← h]
  cases h_x : x.result with
  | error e => rfl
  | ok a => exact h_f a h_x

@[simp] theorem result_after (events : List E) (x : Traced E ε α) :
    (after events x).result = x.result := rfl

@[simp] theorem events_after (events : List E) (x : Traced E ε α) :
    (after events x).events = events ++ x.events := rfl

/-- Every event has the property. -/
def All (P : E → Prop) (x : Traced E ε α) : Prop := ∀ e ∈ x.events, P e

theorem All.pure {P : E → Prop} (a : α) : All P (pure a : Traced E ε α) :=
  fun _ h => absurd h List.not_mem_nil

theorem All.emit {P : E → Prop} {e : E} (h : P e) : All P (emit e : Traced E ε Unit) := by
  intro e' h_e
  rw [List.mem_singleton.mp h_e]
  exact h

theorem All.after {P : E → Prop} {events : List E} {x : Traced E ε α} (h : ∀ e ∈ events, P e)
    (h_x : All P x) : All P (after events x) := by
  intro e h_e
  rcases List.mem_append.mp h_e with h_e | h_e
  · exact h e h_e
  · exact h_x e h_e

theorem All.bind {P : E → Prop} {x : Traced E ε α} {f : α → Traced E ε β} (h : All P x)
    (h_f : ∀ a, x.result = .ok a → All P (f a)) : All P (x >>= f) := by
  cases h_result : x.result with
  | error e =>
    rw [bind_of_error h_result]
    exact h
  | ok a =>
    rw [bind_of_ok h_result]
    exact All.after h (h_f a h_result)

end Traced
