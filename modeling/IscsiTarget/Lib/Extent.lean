import Mathlib

/-!
# Extents and exact covers

An *extent* is a run of consecutive positions. A list of extents *tiles* an
interval when the positions of its members, laid end to end, are a
rearrangement of the interval: every position occurs once and nothing else
does, in whatever order the members come.

* `Tiles.sum_len`: the lengths of the members add up to the interval's.
* `Tiles.exists_mem`: each position of the interval belongs to a member.
* `covers_of_disjoint`: the converse count. Extents that do not overlap and
  stay inside an interval cover it as soon as their lengths add up to it.
-/

/-- A run of `len` consecutive positions from `off` on. -/
structure Extent where
  off : ℕ
  len : ℕ
  deriving DecidableEq, Repr

namespace Extent

/-- The positions of an extent, in order. -/
def positions (e : Extent) : List ℕ := List.range' e.off e.len

/-- Position `p` belongs to the extent. -/
def Mem (e : Extent) (p : ℕ) : Prop := e.off ≤ p ∧ p < e.off + e.len

instance (e : Extent) (p : ℕ) : Decidable (e.Mem p) := inferInstanceAs (Decidable (_ ∧ _))

@[simp] theorem mem_positions {e : Extent} {p : ℕ} : p ∈ e.positions ↔ e.Mem p := by
  simp [positions, Mem, List.mem_range'_1]

@[simp] theorem length_positions (e : Extent) : e.positions.length = e.len := by
  simp [positions]

/-- The positions of all the extents of a list, laid end to end. -/
def spread (es : List Extent) : List ℕ := es.flatMap positions

@[simp] theorem mem_spread {es : List Extent} {p : ℕ} :
    p ∈ spread es ↔ ∃ e ∈ es, e.Mem p := by
  simp [spread]

@[simp] theorem spread_nil : spread [] = [] := rfl

@[simp] theorem spread_cons (e : Extent) (es : List Extent) :
    spread (e :: es) = e.positions ++ spread es := rfl

@[simp] theorem spread_append (es fs : List Extent) :
    spread (es ++ fs) = spread es ++ spread fs := by
  simp [spread]

/-- The lengths of the extents of a list, added up. -/
def total (es : List Extent) : ℕ := (es.map len).sum

@[simp] theorem total_nil : total [] = 0 := rfl

@[simp] theorem total_cons (e : Extent) (es : List Extent) :
    total (e :: es) = e.len + total es := by
  simp [total]

@[simp] theorem total_append (es fs : List Extent) :
    total (es ++ fs) = total es + total fs := by
  simp [total]

@[simp] theorem length_spread (es : List Extent) : (spread es).length = total es := by
  induction es with
  | nil => rfl
  | cons e es ih => simp [ih]

/-! ### Tilings -/

/-- The extents cover `[lo, hi)` exactly once, in any order. -/
def Tiles (es : List Extent) (lo hi : ℕ) : Prop :=
  (spread es).Perm (List.range' lo (hi - lo))

instance (es : List Extent) (lo hi : ℕ) : Decidable (Tiles es lo hi) :=
  inferInstanceAs (Decidable (List.Perm _ _))

variable {es : List Extent} {lo hi : ℕ}

theorem Tiles.sum_len (h : Tiles es lo hi) : total es = hi - lo := by
  have := h.length_eq
  simpa using this

/-- A position lies in the interval exactly when some member has it. -/
theorem Tiles.exists_mem (h : Tiles es lo hi) {p : ℕ} :
    (lo ≤ p ∧ p < hi) ↔ ∃ e ∈ es, e.Mem p := by
  rw [← mem_spread, h.mem_iff, List.mem_range'_1]
  omega

/-! ### Counting instead of covering -/

/-- **Counting suffices without overlap.** Extents with no position in common
that stay inside `[lo, hi)` and whose lengths add up to `hi - lo` leave no
position of it out. -/
theorem covers_of_disjoint (hnd : (spread es).Nodup)
    (hsub : ∀ p ∈ spread es, lo ≤ p ∧ p < hi) (htot : total es = hi - lo) :
    ∀ p, lo ≤ p → p < hi → ∃ e ∈ es, e.Mem p := by
  have h_sub : spread es ⊆ List.range' lo (hi - lo) := by
    intro p hp
    have := hsub p hp
    rw [List.mem_range'_1]
    omega
  have h_perm : Tiles es lo hi :=
    (List.subperm_of_subset hnd h_sub).perm_of_length_le (by simp [htot])
  intro p hlo hhi
  exact h_perm.exists_mem.mp ⟨hlo, hhi⟩

/-- Extents without overlap inside `[lo, hi)` are no longer than it. -/
theorem total_le_of_disjoint (hnd : (spread es).Nodup)
    (hsub : ∀ p ∈ spread es, lo ≤ p ∧ p < hi) : total es ≤ hi - lo := by
  have h_sub : spread es ⊆ List.range' lo (hi - lo) := by
    intro p hp
    have := hsub p hp
    rw [List.mem_range'_1]
    omega
  have := (List.subperm_of_subset hnd h_sub).length_le
  simpa using this

end Extent
