import Mathlib

/-!
# Addressed media

A medium stores one value at every address. This file has the three operations
a device performs on it and how they compose:

* `Medium.store m off d` puts the list `d` at the addresses from `off` on;
* `Medium.clear m off len` puts zero at `len` addresses;
* `Medium.slice m off len` reads `len` values back.

The second half is about *fragments*: pieces of one buffer `d` that are stored
one after the other at their own place. `Holds m base d p` says that position
`p` of the buffer has arrived. `Holds.store_fragment` is the step (a stored
fragment arrives, what had arrived stays), and `eq_store_of_holds` is the end:
a medium that holds every position and is untouched elsewhere is the medium
with the whole buffer stored at once.
-/

/-- A medium stores one value at every address. -/
abbrev Medium (α : Type*) := ℕ → α

namespace Medium

variable {α : Type*}

/-- Store the list `d` at the addresses from `off` on. -/
def store (m : Medium α) (off : ℕ) (d : List α) : Medium α := fun a =>
  if off ≤ a then (d[a - off]?).getD (m a) else m a

/-- Store zero at `len` addresses from `off` on. -/
def clear [Zero α] (m : Medium α) (off len : ℕ) : Medium α := fun a =>
  if off ≤ a ∧ a < off + len then 0 else m a

/-- Read `len` values from `off` on. -/
def slice (m : Medium α) (off len : ℕ) : List α :=
  (List.range len).map fun i => m (off + i)

/-! ### Reading what was stored -/

theorem store_apply_of_le {m : Medium α} {off a : ℕ} {d : List α} (h : off ≤ a) :
    m.store off d a = (d[a - off]?).getD (m a) := if_pos h

/-- Inside the stored range the medium has the stored values. -/
theorem store_apply_of_lt {m : Medium α} {off : ℕ} {d : List α} {i : ℕ} (h : i < d.length) :
    m.store off d (off + i) = d[i] := by
  simp [store, h]

/-- Outside the stored range the medium is unchanged. -/
theorem store_apply_of_notMem {m : Medium α} {off : ℕ} {d : List α} {a : ℕ}
    (h : a < off ∨ off + d.length ≤ a) : m.store off d a = m a := by
  unfold store
  split
  · next hle => rw [List.getElem?_eq_none (by omega), Option.getD_none]
  · rfl

theorem clear_apply_of_notMem [Zero α] {m : Medium α} {off len a : ℕ}
    (h : a < off ∨ off + len ≤ a) : m.clear off len a = m a :=
  if_neg (by omega)

/-- A slice reads its own addresses only. -/
theorem slice_congr {m m' : Medium α} {off len : ℕ}
    (h : ∀ a, off ≤ a → a < off + len → m a = m' a) : m.slice off len = m'.slice off len := by
  refine List.map_congr_left fun i hi => ?_
  have := List.mem_range.mp hi
  exact h _ (by omega) (by omega)

@[simp] theorem store_nil (m : Medium α) (off : ℕ) : m.store off [] = m := by
  funext a
  simp [store]

@[simp] theorem length_slice (m : Medium α) (off len : ℕ) : (m.slice off len).length = len := by
  simp [slice]

@[simp] theorem getElem_slice (m : Medium α) (off len i : ℕ) (h : i < (m.slice off len).length) :
    (m.slice off len)[i] = m (off + i) := by
  simp [slice]

@[simp] theorem slice_zero (m : Medium α) (off : ℕ) : m.slice off 0 = [] := rfl

/-- Reading a range piecewise. -/
theorem slice_add (m : Medium α) (off len₁ len₂ : ℕ) :
    m.slice off (len₁ + len₂) = m.slice off len₁ ++ m.slice (off + len₁) len₂ := by
  simp [slice, List.range_add, Function.comp_def, Nat.add_assoc]

/-- A prefix of what is read is what a shorter read gives. -/
theorem take_slice (m : Medium α) (off len n : ℕ) :
    (m.slice off len).take n = m.slice off (min n len) := by
  simp [slice, ← List.map_take, List.take_range]

/-- Clearing is storing zeros. -/
theorem clear_eq_store [Zero α] (m : Medium α) (off len : ℕ) :
    m.clear off len = m.store off (List.replicate len 0) := by
  funext a
  unfold clear store
  by_cases h : off ≤ a
  · by_cases h' : a - off < len
    · rw [if_pos ⟨h, by omega⟩, if_pos h]
      simp [h']
    · rw [if_neg (by omega), if_pos h]
      simp [h']
  · rw [if_neg (by omega), if_neg h]

/-- Clearing changes nothing where there are zeros, and only there. -/
theorem clear_eq_self_iff [Zero α] (m : Medium α) (off len : ℕ) :
    m.clear off len = m ↔ ∀ a, off ≤ a → a < off + len → m a = 0 := by
  constructor
  · intro h a h_le h_lt
    exact (congrFun h a).symm.trans (if_pos ⟨h_le, h_lt⟩)
  · intro h
    funext a
    by_cases h_in : off ≤ a ∧ a < off + len
    · exact (if_pos h_in).trans (h a h_in.1 h_in.2).symm
    · exact if_neg h_in

/-- Storing a list again changes nothing. -/
theorem store_store (m : Medium α) (off : ℕ) (d : List α) :
    (m.store off d).store off d = m.store off d := by
  funext a
  by_cases h : off ≤ a
  · rw [store_apply_of_le h, store_apply_of_le h]
    cases d[a - off]? with
    | none => rfl
    | some v => rfl
  · rw [store_apply_of_notMem (Or.inl (not_le.mp h))]

/-- Storing two lists one behind the other is the same as storing them as one
list. -/
theorem store_append (m : Medium α) (off : ℕ) (d₁ d₂ : List α) :
    m.store off (d₁ ++ d₂) = (m.store off d₁).store (off + d₁.length) d₂ := by
  funext a
  -- the positions of the second list, and the others
  by_cases h : off + d₁.length ≤ a
  · rw [store_apply_of_le (d := d₂) h, store_apply_of_le (by omega),
      store_apply_of_notMem (d := d₁) (by omega), List.getElem?_append_right (by omega),
      show a - off - d₁.length = a - (off + d₁.length) by omega]
  · rw [store_apply_of_notMem (a := a) (d := d₂) (by omega)]
    unfold store
    split
    · rw [List.getElem?_append_left (by omega)]
    · rfl

/-- Storing back what was read changes nothing, so a list that is filled up from
the medium has the effect of the list alone. -/
theorem store_append_slice (m : Medium α) (off len : ℕ) (d : List α) :
    m.store off (d ++ (m.slice off len).drop d.length) = m.store off d := by
  rw [store_append]
  funext a
  -- behind the list stands what stood there, in front of that the list decides
  by_cases h : off + d.length ≤ a
  · rw [store_apply_of_le h, store_apply_of_notMem (d := d) (by omega)]
    cases hi : ((m.slice off len).drop d.length)[a - (off + d.length)]? with
    | none => rfl
    | some v =>
      rw [List.getElem?_drop, List.getElem?_eq_some_iff] at hi
      obtain ⟨hlt, hv⟩ := hi
      rw [Option.getD_some, ← hv, getElem_slice]
      congr 1
      omega
  · exact store_apply_of_notMem (by omega)

/-- What is stored is read back. -/
theorem slice_store (m : Medium α) (off : ℕ) (d : List α) :
    (m.store off d).slice off d.length = d := by
  apply List.ext_getElem (length_slice _ _ _)
  intro i h_slice h_d
  rw [getElem_slice, store_apply_of_lt h_d]

/-- A range beside what is stored. -/
theorem slice_store_of_le {m : Medium α} {off a len : ℕ} {d : List α} (h : off + d.length ≤ a) :
    (m.store off d).slice a len = m.slice a len :=
  slice_congr fun _ hx _ => store_apply_of_notMem (.inr (h.trans hx))

/-- Behind the stored part of a list, what was there before. -/
theorem slice_store_take {m : Medium α} {off k : ℕ} {d : List α} (h : k ≤ d.length) :
    (m.store off (d.take k)).slice off d.length = d.take k ++ (m.slice off d.length).drop k := by
  have h_len : (d.take k).length = k := List.length_take_of_le h
  obtain ⟨j, hj⟩ := Nat.exists_eq_add_of_le h
  have h_behind : off + (d.take k).length ≤ off + k := by rw [h_len]
  have h_read := slice_store m off (d.take k)
  rw [h_len] at h_read
  rw [hj, slice_add, slice_add, List.drop_left' (length_slice _ _ _), slice_store_of_le h_behind,
    h_read]

/-- Storing what is there already is the same as not storing, and nothing else
is. -/
theorem store_eq_self_iff {m : Medium α} {off : ℕ} {d : List α} :
    m.store off d = m ↔ m.slice off d.length = d := by
  constructor
  · intro h_same
    rw [← h_same]
    exact slice_store m off d
  · intro h_slice
    funext a
    -- outside nothing is stored, inside it is what was read
    by_cases h_in : a < off ∨ off + d.length ≤ a
    · exact store_apply_of_notMem h_in
    · obtain ⟨i, rfl⟩ : ∃ i, a = off + i := ⟨a - off, by omega⟩
      have h_lt : i < d.length := by omega
      have h_in_slice : i < (m.slice off d.length).length := by
        rw [length_slice]
        exact h_lt
      have h_get : (m.slice off d.length)[i] = d[i] := by
        simp only [h_slice]
      rw [store_apply_of_lt h_lt, ← h_get, getElem_slice]

/-- Two lists of one length leave the same medium only when they are the same. -/
theorem store_inj {m : Medium α} {off : ℕ} {d d' : List α} (h_len : d.length = d'.length) :
    m.store off d = m.store off d' ↔ d = d' := by
  constructor
  · intro h_same
    rw [← slice_store m off d, h_same, h_len]
    exact slice_store m off d'
  · intro h_eq
    rw [h_eq]

/-- A list that goes on with what is behind it already. -/
theorem store_append_behind (m : Medium α) (off len : ℕ) (d : List α) :
    m.store off (d ++ m.slice (off + d.length) len) = m.store off d := by
  rw [store_append, store_eq_self_iff, length_slice]
  exact slice_store_of_le le_rfl

/-- Comparing a range with a list, first one part and then the next. -/
theorem slice_eq_take_add {m : Medium α} {off a b : ℕ} {d : List α} (h : a ≤ d.length) :
    m.slice off (a + b) = d.take (a + b) ↔
      m.slice off a = d.take a ∧ m.slice (off + a) b = (d.drop a).take b := by
  rw [slice_add, List.take_add]
  constructor
  · intro h_eq
    exact List.append_inj h_eq (by rw [length_slice, List.length_take_of_le h])
  · rintro ⟨h_first, h_next⟩
    rw [h_first, h_next]

/-! ### Fragments of one buffer -/

/-- Position `p` of the buffer `d` has arrived at the medium, the buffer being
addressed from `base` on. -/
def Holds (m : Medium α) (base : ℕ) (d : List α) (p : ℕ) : Prop :=
  d[p]? = some (m (base + p))

/-- The fragment `d[off, off + len)`, when it lies in the buffer. -/
theorem getElem?_fragment {d : List α} {off len i : ℕ} (h : i < len) :
    ((d.drop off).take len)[i]? = d[off + i]? := by
  rw [List.getElem?_take_of_lt h, List.getElem?_drop]

/-- **A stored fragment.** Storing the fragment `d[off, off + len)` at its own
place makes its positions arrive, and every position that had arrived stays. -/
theorem Holds.store_fragment {m : Medium α} {base off len : ℕ} {d : List α}
    (hlen : off + len ≤ d.length) {p : ℕ}
    (h : m.Holds base d p ∨ (off ≤ p ∧ p < off + len)) :
    (m.store (base + off) ((d.drop off).take len)).Holds base d p := by
  have hl : ((d.drop off).take len).length = len := by simp; omega
  unfold Holds
  by_cases hp : off ≤ p ∧ p < off + len
  · -- inside the fragment the stored value is the buffer's own
    obtain ⟨j, rfl⟩ : ∃ j, p = off + j := ⟨p - off, by omega⟩
    have hj : j < ((d.drop off).take len).length := by omega
    rw [← Nat.add_assoc, store_apply_of_lt hj, ← getElem?_fragment (show j < len by omega),
      List.getElem?_eq_getElem hj]
  · rw [store_apply_of_notMem (by omega)]
    exact h.resolve_right hp

/-- **The end of an assembly.** A medium that holds every position of the buffer
and agrees with `m₀` outside it is `m₀` with the buffer stored at once. -/
theorem eq_store_of_holds {m m₀ : Medium α} {base : ℕ} {d : List α}
    (hin : ∀ p, p < d.length → m.Holds base d p)
    (hout : ∀ a, a < base ∨ base + d.length ≤ a → m a = m₀ a) :
    m = m₀.store base d := by
  funext a
  -- inside the buffer by what arrived, outside by what was kept
  by_cases h : base ≤ a ∧ a < base + d.length
  · obtain ⟨p, rfl⟩ : ∃ p, a = base + p := ⟨a - base, by omega⟩
    have hp : p < d.length := by omega
    have := hin p hp
    rw [Holds, List.getElem?_eq_getElem hp] at this
    rw [store_apply_of_lt hp]
    exact (Option.some.inj this).symm
  · rw [store_apply_of_notMem (by omega)]
    exact hout a (by omega)

/-! ### Sequences of updates -/

/-- Store several lists one after the other, each at its own address. -/
def storeAll (m : Medium α) (ps : List (ℕ × List α)) : Medium α :=
  ps.foldl (fun m p => m.store p.1 p.2) m

@[simp] theorem storeAll_nil (m : Medium α) : m.storeAll [] = m := rfl

@[simp] theorem storeAll_cons (m : Medium α) (p : ℕ × List α) (ps : List (ℕ × List α)) :
    m.storeAll (p :: ps) = (m.store p.1 p.2).storeAll ps := rfl

theorem storeAll_append (m : Medium α) (ps qs : List (ℕ × List α)) :
    m.storeAll (ps ++ qs) = (m.storeAll ps).storeAll qs := List.foldl_append

/-- An address that no update reaches keeps its value. -/
theorem storeAll_apply_of_notMem {m : Medium α} {ps : List (ℕ × List α)} {a : ℕ}
    (h : ∀ p ∈ ps, a < p.1 ∨ p.1 + p.2.length ≤ a) : m.storeAll ps a = m a := by
  induction ps generalizing m with
  | nil => rfl
  | cons p ps ih =>
    rw [storeAll_cons, ih fun q hq => h q (List.mem_cons_of_mem p hq)]
    exact store_apply_of_notMem (h p List.mem_cons_self)

/-- **The last update that reaches an address decides what is stored there.** -/
theorem storeAll_apply_of_last {m : Medium α} {ps qs : List (ℕ × List α)} {off : ℕ} {d : List α}
    {i : ℕ} (hi : i < d.length) (h : ∀ p ∈ qs, off + i < p.1 ∨ p.1 + p.2.length ≤ off + i) :
    m.storeAll (ps ++ (off, d) :: qs) (off + i) = d[i] := by
  rw [storeAll_append, storeAll_cons, storeAll_apply_of_notMem h, store_apply_of_lt hi]

/-! ### Blocks -/

/-- What a range of blocks that is cleared leaves in a block. A byte of block
`b` is in the range exactly when the block is. -/
theorem clear_block_apply [Zero α] {m : Medium α} {bs lba n b i : ℕ} (hi : i < bs) :
    m.clear (lba * bs) (n * bs) (b * bs + i) =
      if lba ≤ b ∧ b < lba + n then 0 else m (b * bs + i) := by
  have h_iff : lba * bs ≤ b * bs + i ∧ b * bs + i < lba * bs + n * bs ↔
      lba ≤ b ∧ b < lba + n := by
    rw [← Nat.add_mul]
    constructor
    · rintro ⟨h_le, h_lt⟩
      constructor
      · -- a block in front of the range, or behind it, would be out by a whole block
        by_contra h
        have h_mul := Nat.mul_le_mul_right bs (show b + 1 ≤ lba by omega)
        rw [Nat.add_mul, Nat.one_mul] at h_mul
        omega
      · by_contra h
        have h_mul := Nat.mul_le_mul_right bs (show lba + n ≤ b by omega)
        omega
    · rintro ⟨h_le, h_lt⟩
      have h_first := Nat.mul_le_mul_right bs h_le
      have h_last := Nat.mul_le_mul_right bs (show b + 1 ≤ lba + n by omega)
      rw [Nat.add_mul, Nat.one_mul] at h_last
      omega
  unfold clear
  simp only [h_iff]

/-- What a block that is stored leaves in a block: itself in its own place, and
nothing anywhere else. -/
theorem slice_store_block {m : Medium α} {d : List α} {a b : ℕ} :
    (m.store (a * d.length) d).slice (b * d.length) d.length =
      if b = a then d else m.slice (b * d.length) d.length := by
  split
  · next h_eq =>
    rw [h_eq]
    refine List.ext_getElem (by rw [length_slice]) fun i h_i h_i' => ?_
    rw [getElem_slice, store_apply_of_lt h_i']
  · -- two blocks do not overlap
    next h_ne =>
    refine slice_congr fun p h_le h_lt => store_apply_of_notMem ?_
    rcases Nat.lt_or_gt_of_ne h_ne with h | h
    · have h_mul := Nat.mul_le_mul_right d.length (show b + 1 ≤ a from h)
      rw [Nat.add_mul, Nat.one_mul] at h_mul
      omega
    · have h_mul := Nat.mul_le_mul_right d.length (show a + 1 ≤ b from h)
      rw [Nat.add_mul, Nat.one_mul] at h_mul
      omega

end Medium
