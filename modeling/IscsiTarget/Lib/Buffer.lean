import Mathlib

/-!
# Buffers of a fixed size

A buffer is a list whose length is what was allocated. `blit` is `memcpy` into it and
`put` the write of one element. Both fail where the write does not lie inside the buffer,
so that a program written with them in the `Option` monad gives a result exactly when each
of its writes does.
-/

namespace Buffer

variable {α : Type*}

/-- Copying `src` to the elements of `buf` from `offset` on. -/
def blit (buf : List α) (offset : ℕ) (src : List α) : Option (List α) :=
  if offset + src.length ≤ buf.length then
    some (buf.take offset ++ src ++ buf.drop (offset + src.length))
  else none

/-- Writing one element. -/
def put (buf : List α) (i : ℕ) (a : α) : Option (List α) := blit buf i [a]

theorem blit_of_le {buf src : List α} {offset : ℕ} (h : offset + src.length ≤ buf.length) :
    blit buf offset src = some (buf.take offset ++ src ++ buf.drop (offset + src.length)) :=
  if_pos h

theorem blit_of_lt {buf src : List α} {offset : ℕ} (h : buf.length < offset + src.length) :
    blit buf offset src = none :=
  if_neg (by omega)

/-- A copy takes the place of as many elements as it has. -/
theorem blit_append {front old back src : List α} (h : src.length = old.length) :
    blit (front ++ (old ++ back)) front.length src = some (front ++ (src ++ back)) := by
  have h_le : front.length + src.length ≤ (front ++ (old ++ back)).length := by
    rw [List.length_append, List.length_append]
    omega
  rw [blit_of_le h_le, List.take_left, h, List.drop_length_add_append, List.drop_left,
    List.append_assoc]

theorem blit_zero_append {old back src : List α} (h : src.length = old.length) :
    blit (old ++ back) 0 src = some (src ++ back) :=
  @blit_append α [] old back src h

/-- A write does not change the size. -/
theorem length_of_blit {buf src buf' : List α} {offset : ℕ}
    (h : blit buf offset src = some buf') : buf'.length = buf.length := by
  unfold blit at h
  split at h
  · next h_le =>
    cases h
    simp
    omega
  · exact absurd h (by simp)

/-- Inside the buffer a copy goes through and keeps the size. -/
theorem exists_blit {buf src : List α} {offset : ℕ} (h : offset + src.length ≤ buf.length) :
    ∃ buf', blit buf offset src = some buf' ∧ buf'.length = buf.length :=
  ⟨_, blit_of_le h, length_of_blit (blit_of_le h)⟩

/-- Up to its end a copy keeps what was in front of it. -/
theorem take_of_blit {buf src buf' : List α} {offset : ℕ} (h : blit buf offset src = some buf') :
    buf'.take (offset + src.length) = buf.take offset ++ src := by
  unfold blit at h
  split at h
  · next h_le =>
    cases h
    have h_len : (buf.take offset ++ src).length = offset + src.length := by
      rw [List.length_append, List.length_take, Nat.min_eq_left (by omega)]
    rw [← h_len, List.take_left]
  · exact absurd h (by simp)

theorem take_of_put {buf buf' : List α} {i : ℕ} {a : α} (h : put buf i a = some buf') :
    buf'.take (i + 1) = buf.take i ++ [a] :=
  take_of_blit h

theorem put_of_le {buf : List α} {i : ℕ} (a : α) (h : buf.length ≤ i) : put buf i a = none :=
  blit_of_lt (by simp; omega)

theorem put_of_lt {buf : List α} {i : ℕ} (a : α) (h : i < buf.length) :
    put buf i a = some (buf.set i a) := by
  rw [put, blit_of_le h, List.set_eq_take_append_cons_drop, if_pos h, List.append_assoc,
    List.singleton_append, List.length_singleton]

/-- A copy leaves alone what is not under it: what is in front of its offset,
and what is behind its end. -/
theorem getElem?_of_blit {buf src buf' : List α} {offset i : ℕ}
    (h : blit buf offset src = some buf') (h_i : i < offset ∨ offset + src.length ≤ i) :
    buf'[i]? = buf[i]? := by
  unfold blit at h
  split at h
  · next h_le =>
    cases h
    have h_take : (buf.take offset).length = offset := by
      rw [List.length_take, Nat.min_eq_left (by omega)]
    rcases h_i with h_i | h_i
    · rw [List.append_assoc, List.getElem?_append_left (by omega), List.getElem?_take_of_lt h_i]
    · rw [List.getElem?_append_right (by rw [List.length_append]; omega), List.getElem?_drop]
      congr 1
      rw [List.length_append]
      omega
  · exact absurd h (by simp)

theorem getElem?_of_put_ne {buf buf' : List α} {i j : ℕ} {a : α} (h : put buf i a = some buf')
    (h_j : j ≠ i) : buf'[j]? = buf[j]? :=
  getElem?_of_blit h (by rw [List.length_singleton]; omega)

theorem getElem?_of_put {buf buf' : List α} {i : ℕ} {a : α} (h : put buf i a = some buf') :
    buf'[i]? = some a := by
  have h_take := take_of_put h
  have h_len : i < buf.length := by
    by_contra h_le
    rw [put_of_le a (Nat.not_lt.mp h_le)] at h
    exact absurd h (by simp)
  have h_i : (buf'.take (i + 1))[i]? = buf'[i]? := List.getElem?_take_of_lt (Nat.lt_succ_self i)
  rw [← h_i, h_take, List.getElem?_append_right (by rw [List.length_take]; omega),
    List.length_take, Nat.min_eq_left (Nat.le_of_lt h_len), Nat.sub_self]
  rfl

theorem length_of_put {buf buf' : List α} {i : ℕ} {a : α} (h : put buf i a = some buf') :
    buf'.length = buf.length :=
  length_of_blit h

theorem exists_put {buf : List α} {i : ℕ} (a : α) (h : i < buf.length) :
    ∃ buf', put buf i a = some buf' ∧ buf'.length = buf.length :=
  exists_blit (by simp; omega)

end Buffer
