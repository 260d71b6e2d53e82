import Mathlib

/-!
# Traces

A trace is a list of events, and what is said about an event in it is said about the
events before it and behind it. `append_eq_iff` is the case split that every such
argument makes when a trace is put together from two parts: the event is in the first
part or in the second.
-/

namespace Trace

variable {α : Type*} {es fs pre post : List α} {e : α}

/-- **Where an event of a trace lies** that is put together from two parts: in
the first, or in the second. -/
theorem append_eq_iff :
    es ++ fs = pre ++ e :: post ↔
      (∃ mid, es = pre ++ e :: mid ∧ post = mid ++ fs) ∨
        ∃ mid, pre = es ++ mid ∧ fs = mid ++ e :: post := by
  constructor
  · intro heq
    rcases List.append_eq_append_iff.mp heq with ⟨as, rfl, h_fs⟩ | ⟨bs, rfl, h_post⟩
    · exact .inr ⟨as, rfl, h_fs⟩
    · cases bs with
      | nil => exact .inr ⟨[], by simp, h_post.symm⟩
      | cons b bs =>
        rw [List.cons_append, List.cons.injEq] at h_post
        obtain ⟨rfl, h_post⟩ := h_post
        exact .inl ⟨bs, rfl, h_post⟩
  · rintro (⟨mid, rfl, rfl⟩ | ⟨mid, rfl, rfl⟩) <;> simp

/-- The last event, or one before it. It is the case of a second part with one
event. -/
theorem append_singleton_eq_iff {a : α} :
    es ++ [a] = pre ++ e :: post ↔
      (∃ mid, es = pre ++ e :: mid ∧ post = mid ++ [a]) ∨ pre = es ∧ e = a ∧ post = [] := by
  rw [append_eq_iff]
  refine or_congr_right ⟨?_, ?_⟩
  · rintro ⟨mid, rfl, h⟩
    cases mid with
    | nil =>
      rw [List.nil_append, List.cons.injEq] at h
      exact ⟨by simp, h.1.symm, h.2.symm⟩
    | cons b mid => simp at h
  · rintro ⟨rfl, rfl, rfl⟩
    exact ⟨[], by simp, rfl⟩

end Trace
