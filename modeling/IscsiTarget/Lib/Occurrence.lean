import Mathlib

/-!
# Occurrences of one list in another

`First sep s i` says that `sep` stands at position `i` of `s` and nowhere in front of it, and
`count` counts the occurrences from left to right, each behind the one before it. A search that
goes on behind what it has found meets exactly those: `count_of_first` for each of them, and
`count_of_not_infix` at the end.
-/

namespace Occurrence

variable {α : Type*}

theorem infix_iff {sep s : List α} : sep <:+: s ↔ ∃ i, sep <+: s.drop i := by
  rw [List.infix_iff_prefix_suffix]
  constructor
  · rintro ⟨t, h_prefix, h_suffix⟩
    rw [List.suffix_iff_eq_drop] at h_suffix
    exact ⟨s.length - t.length, h_suffix ▸ h_prefix⟩
  · rintro ⟨i, h⟩
    exact ⟨s.drop i, h, List.drop_suffix i s⟩

/-- The first position of `sep` in `s`. -/
structure First (sep s : List α) (i : ℕ) : Prop where
  stands : sep <+: s.drop i
  earlier : ∀ j < i, ¬ sep <+: s.drop j

namespace First

variable {sep s : List α} {i : ℕ}

theorem tail {b : α} (h : First sep (b :: s) (i + 1)) : First sep s i where
  stands := h.stands
  earlier j h_lt := h.earlier (j + 1) (Nat.succ_lt_succ h_lt)

theorem cons {b : α} (h : First sep s i) (h_not : ¬ sep <+: b :: s) :
    First sep (b :: s) (i + 1) where
  stands := h.stands
  earlier := by
    intro j h_lt
    cases j with
    | zero => exact h_not
    | succ j => exact h.earlier j (Nat.lt_of_succ_lt_succ h_lt)

/-- What is in front of it, it, and what is behind it. -/
theorem append (h : First sep s i) : s.take i ++ (sep ++ s.drop (i + sep.length)) = s := by
  obtain ⟨t, h_t⟩ := h.stands
  have h_drop : s.drop (i + sep.length) = t := by
    rw [← List.drop_drop, ← h_t, List.drop_left]
  rw [h_drop, h_t, List.take_append_drop]

/-- In front of the first position there is none. -/
theorem not_infix_take (h : First sep s i) (h_sep : sep ≠ []) : ¬ sep <:+: s.take i := by
  intro h_infix
  obtain ⟨j, h_stands⟩ := infix_iff.mp h_infix
  have h_lt : j < i := by
    by_contra h_ge
    rw [List.drop_eq_nil_of_le (by rw [List.length_take]; omega), List.prefix_nil] at h_stands
    exact h_sep h_stands
  refine h.earlier j h_lt (h_stands.trans ?_)
  rw [List.drop_take]
  exact List.take_prefix _ _

end First

variable [DecidableEq α]

/-- The number of occurrences in `s` from left to right, without overlaps, when
the first `skip` elements belong to the occurrence before. -/
def count (sep : List α) : ℕ → List α → ℕ
  | _, [] => 0
  | skip + 1, _ :: s => count sep skip s
  | 0, b :: s => if sep <+: b :: s then count sep (sep.length - 1) s + 1 else count sep 0 s

theorem count_skip (sep : List α) (skip : ℕ) (s : List α) :
    count sep skip s = count sep 0 (s.drop skip) := by
  induction skip generalizing s with
  | zero => rfl
  | succ skip ih =>
    cases s with
    | nil => rfl
    | cons b s => exact ih s

theorem count_of_not_infix {sep s : List α} (h : ¬ sep <:+: s) : count sep 0 s = 0 := by
  induction s with
  | nil => rfl
  | cons b s ih =>
    rw [count, if_neg fun h_prefix => h h_prefix.isInfix]
    exact ih fun h_in => h (h_in.trans (List.suffix_cons b s).isInfix)

theorem count_of_first {sep s : List α} {i : ℕ} (h : First sep s i) (h_sep : sep ≠ []) :
    count sep 0 s = count sep 0 (s.drop (i + sep.length)) + 1 := by
  induction i generalizing s with
  | zero =>
    have h_prefix : sep <+: s := h.stands
    cases s with
    | nil => exact absurd (List.prefix_nil.mp h_prefix) h_sep
    | cons b s =>
      obtain ⟨n, h_n⟩ := Nat.exists_eq_add_one_of_ne_zero (List.length_pos_iff.mpr h_sep).ne'
      rw [count, if_pos h_prefix, count_skip, h_n, Nat.zero_add, List.drop_succ_cons,
        Nat.add_sub_cancel]
  | succ i ih =>
    cases s with
    | nil => exact absurd (List.prefix_nil.mp h.stands) h_sep
    | cons b s =>
      have h_not : ¬ sep <+: b :: s := h.earlier 0 i.succ_pos
      rw [count, if_neg h_not, ih h.tail, Nat.add_right_comm i 1, List.drop_succ_cons]

end Occurrence
