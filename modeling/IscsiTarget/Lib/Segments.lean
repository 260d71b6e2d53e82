import IscsiTarget.Lib.Medium

/-!
# Reading a medium in segments

A reader fetches whole blocks of `bs` values and delivers a range of the medium segment
by segment. A segment of `len` values comes from the block the reader has got to: the
start of that block when the segment is shorter than one, otherwise as many whole blocks
as fit into it, and the rest of the segment stays zero (`piece`). After that the reader
moves on by `len / bs` blocks.

`pieces_eq_slice_iff` says when the range comes out, whatever is on the medium: no segment
but the last may end inside a block, and the last one only when it is shorter than one
(`Aligned`). `aligned_cut_iff` reads this for a range that is cut into segments of one
size (`cut`).

`slots` says where the segments are, whoever makes them and whatever they hold.
-/

namespace Segments

variable {α : Type*} [Zero α]

/-! ### Cutting a range -/

/-- The lengths of the segments of a range of `n` values, `cap` being the most
one segment can take. -/
def cut (cap n : ℕ) : List ℕ :=
  List.replicate (n / cap) cap ++ if n % cap = 0 then [] else [n % cap]

/-- The length of the last segment. -/
def lastLength (cap n : ℕ) : ℕ := n - (n - 1) / cap * cap

@[simp] theorem cut_zero (cap : ℕ) : cut cap 0 = [] := by simp [cut]

/-- The first segment, and the segments of the rest. -/
theorem cut_of_pos {cap n : ℕ} (hcap : 0 < cap) (hn : 0 < n) :
    cut cap n = min cap n :: cut cap (n - min cap n) := by
  by_cases h : n < cap
  · rw [min_eq_right h.le, Nat.sub_self, cut_zero, cut, Nat.div_eq_of_lt h, Nat.mod_eq_of_lt h,
      if_neg (by omega)]
    rfl
  · have h_le : cap ≤ n := by omega
    rw [min_eq_left h_le, cut, cut, Nat.div_eq_sub_div hcap h_le, Nat.mod_eq_sub_mod h_le,
      List.replicate_succ]
    rfl

theorem sum_cut {cap : ℕ} (n : ℕ) : (cut cap n).sum = n := by
  have h := Nat.div_add_mod' n cap
  unfold cut
  split <;> simp <;> omega

theorem pos_of_mem_cut {cap n len : ℕ} (hcap : 0 < cap) (h : len ∈ cut cap n) : 0 < len := by
  rcases List.mem_append.mp h with h | h
  · rw [(List.mem_replicate.mp h).2]
    exact hcap
  · split at h
    · exact absurd h (by simp)
    · rw [List.mem_singleton.mp h]
      omega

theorem le_of_mem_cut {cap n len : ℕ} (hcap : 0 < cap) (h : len ∈ cut cap n) : len ≤ cap := by
  rcases List.mem_append.mp h with h | h
  · rw [(List.mem_replicate.mp h).2]
  · split at h
    · exact absurd h (by simp)
    · rw [List.mem_singleton.mp h]
      exact (Nat.mod_lt n hcap).le

/-! ### Where the segments are -/

/-- The place of a segment among the others: how many values are in front of it,
how many it takes, and whether it is the last. -/
structure Slot where
  offset : ℕ
  length : ℕ
  last : Bool

/-- The places of segments with these lengths, one behind the other. -/
def slots : ℕ → List ℕ → List Slot
  | _, [] => []
  | offset, len :: lens =>
    { offset := offset, length := len, last := lens.isEmpty } :: slots (offset + len) lens

@[simp] theorem map_length_slots (offset : ℕ) (lens : List ℕ) :
    (slots offset lens).map Slot.length = lens := by
  induction lens generalizing offset with
  | nil => rfl
  | cons len lens ih => rw [slots, List.map_cons, ih]

/-- A segment begins where the ones in front of it end, and only the last has
none behind it. By induction on the lengths. -/
theorem slots_split {lens : List ℕ} {offset : ℕ} {pre post : List Slot} {s : Slot}
    (h : slots offset lens = pre ++ s :: post) :
    s.offset = offset + (pre.map Slot.length).sum ∧ (s.last = true ↔ post = []) := by
  induction lens generalizing offset pre with
  | nil => exact absurd h (by simp [slots])
  | cons len lens ih =>
    cases pre with
    | nil =>
      obtain ⟨rfl, rfl⟩ := List.cons.inj h
      refine ⟨rfl, ?_⟩
      cases lens <;> simp [slots]
    | cons s' pre =>
      obtain ⟨rfl, h_rest⟩ := List.cons.inj h
      obtain ⟨h_offset, h_last⟩ := ih h_rest
      refine ⟨?_, h_last⟩
      rw [h_offset, List.map_cons, List.sum_cons, Nat.add_assoc]

/-- The place of the first segment of a cut range. -/
theorem slots_cut_of_pos {cap n : ℕ} (hcap : 0 < cap) (hn : 0 < n) (offset : ℕ) :
    slots offset (cut cap n) =
      { offset := offset, length := min cap n, last := decide (n ≤ cap) } ::
        slots (offset + min cap n) (cut cap (n - min cap n)) := by
  have h_last : (cut cap (n - min cap n)).isEmpty = decide (n ≤ cap) := by
    by_cases h : n ≤ cap
    · rw [min_eq_right h, Nat.sub_self, cut_zero, decide_eq_true h]
      rfl
    · rw [min_eq_left (by omega), cut_of_pos hcap (by omega), decide_eq_false h]
      rfl
  rw [cut_of_pos hcap hn, slots, h_last]

/-! ### What the reader delivers -/

/-- One segment, read from block `b`. -/
def piece (m : Medium α) (bs b len : ℕ) : List α :=
  if len < bs then m.slice (b * bs) len
  else m.slice (b * bs) (len / bs * bs) ++ List.replicate (len - len / bs * bs) 0

/-- All the segments, from block `b` on. -/
def pieces (m : Medium α) (bs : ℕ) : ℕ → List ℕ → List α
  | _, [] => []
  | b, len :: lens => piece m bs b len ++ pieces m bs (b + len / bs) lens

@[simp] theorem length_piece (m : Medium α) (bs b len : ℕ) : (piece m bs b len).length = len := by
  have h := Nat.div_mul_le_self len bs
  unfold piece
  split
  · simp
  · simp
    omega

@[simp] theorem length_pieces (m : Medium α) (bs b : ℕ) (lens : List ℕ) :
    (pieces m bs b lens).length = lens.sum := by
  induction lens generalizing b with
  | nil => rfl
  | cons len lens ih => rw [pieces, List.length_append, length_piece, ih, List.sum_cons]

/-- The segments of a reader that is not thrown off: all but the last are whole
blocks, and the last is whole blocks or less than one. -/
def Aligned (bs : ℕ) : List ℕ → Prop
  | [] => True
  | [len] => len < bs ∨ bs ∣ len
  | len :: len' :: lens => bs ∣ len ∧ Aligned bs (len' :: lens)

theorem aligned_cons {bs len : ℕ} {lens : List ℕ} (h : lens ≠ []) :
    Aligned bs (len :: lens) ↔ bs ∣ len ∧ Aligned bs lens := by
  cases lens with
  | nil => exact absurd rfl h
  | cons len' lens => exact Iff.rfl

/-- A segment that does not end behind the first block and inside another. -/
theorem piece_eq_slice {bs len : ℕ} (h : len < bs ∨ bs ∣ len) (m : Medium α) (b : ℕ) :
    piece m bs b len = m.slice (b * bs) len := by
  unfold piece
  split
  · rfl
  · next h_ge =>
    rw [Nat.div_mul_cancel (h.resolve_left h_ge), Nat.sub_self, List.replicate_zero,
      List.append_nil]

/-- A segment that does leaves a zero where the medium may have something else.
It is the end of a segment that is longer than its whole blocks. -/
theorem piece_ne_slice {bs len : ℕ} {a : α} (ha : a ≠ 0) (hlen : bs ≤ len) (h : ¬ bs ∣ len)
    (b : ℕ) : piece (fun _ => a) bs b len ≠ Medium.slice (fun _ => a) (b * bs) len := by
  have h_lt : len / bs * bs < len := by
    refine lt_of_le_of_ne (Nat.div_mul_le_self _ _) fun heq => h ?_
    exact ⟨len / bs, by rw [Nat.mul_comm]; exact heq.symm⟩
  intro heq
  -- the first value behind the whole blocks
  have h_at := congrArg (fun l => l[len / bs * bs]?) heq
  simp only [piece, if_neg (not_lt.mpr hlen)] at h_at
  rw [List.getElem?_append_right (by simp), List.getElem?_eq_getElem (by simp; omega),
    List.getElem?_eq_getElem (by simpa using h_lt)] at h_at
  simp at h_at
  exact ha h_at.symm

/-- The first value of what is delivered is the first one of the block, however
long the first segment is. -/
theorem pieces_head {bs len : ℕ} (hbs : 0 < bs) (hlen : 0 < len) (m : Medium α) (b : ℕ)
    (lens : List ℕ) : (pieces m bs b (len :: lens))[0]? = some (m (b * bs)) := by
  have h_piece : (piece m bs b len)[0]? = some (m (b * bs)) := by
    unfold piece
    split
    · rw [List.getElem?_eq_getElem (by simpa using hlen)]
      simp
    · next h_ge =>
      have h_pos : 0 < len / bs * bs := Nat.mul_pos (Nat.div_pos (by omega) hbs) hbs
      rw [List.getElem?_append_left (by simpa using h_pos),
        List.getElem?_eq_getElem (by simpa using h_pos)]
      simp
  rw [pieces, List.getElem?_append_left (by simpa using hlen)]
  exact h_piece

/-- Aligned segments deliver the range. By induction on the segments, each one
beginning where the last one ended. -/
theorem pieces_eq_slice {bs : ℕ} {lens : List ℕ} (h : Aligned bs lens) (m : Medium α) (b : ℕ) :
    pieces m bs b lens = m.slice (b * bs) lens.sum := by
  induction lens generalizing b with
  | nil => rfl
  | cons len lens ih =>
    by_cases h_nil : lens = []
    · subst h_nil
      rw [pieces, pieces, List.append_nil, piece_eq_slice h]
      simp
    · obtain ⟨h_dvd, h_rest⟩ := (aligned_cons h_nil).mp h
      have h_next : (b + len / bs) * bs = b * bs + len := by
        rw [Nat.add_mul, Nat.div_mul_cancel h_dvd]
      calc pieces m bs b (len :: lens)
          = m.slice (b * bs) len ++ m.slice (b * bs + len) lens.sum := by
            rw [pieces, piece_eq_slice (.inr h_dvd), ih h_rest, h_next]
        _ = m.slice (b * bs) (len :: lens).sum := by
            rw [List.sum_cons, Medium.slice_add]

/-- **Which segments deliver every medium.** A medium that differs from the
others in one place is enough to tell a loop that has lost its place. -/
theorem pieces_eq_slice_iff [Nontrivial α] {bs : ℕ} (hbs : 0 < bs) {lens : List ℕ}
    (hpos : ∀ len ∈ lens, 0 < len) (b : ℕ) :
    (∀ m : Medium α, pieces m bs b lens = m.slice (b * bs) lens.sum) ↔ Aligned bs lens := by
  refine ⟨fun h => ?_, fun h m => pieces_eq_slice h m b⟩
  obtain ⟨a, ha⟩ := exists_ne (0 : α)
  induction lens generalizing b with
  | nil => trivial
  | cons len lens ih =>
    obtain ⟨h_len, h_lens⟩ := List.forall_mem_cons.mp hpos
    -- the first segment and the others, medium by medium
    have h_split (m : Medium α) : piece m bs b len = m.slice (b * bs) len ∧
        pieces m bs (b + len / bs) lens = m.slice (b * bs + len) lens.sum := by
      have h_m := h m
      rw [pieces, List.sum_cons, Medium.slice_add] at h_m
      exact List.append_inj h_m (by simp)
    have h_first : len < bs ∨ bs ∣ len := by
      by_contra h_not
      push Not at h_not
      exact piece_ne_slice ha h_not.1 h_not.2 b (h_split fun _ => a).1
    cases lens with
    | nil => exact h_first
    | cons len' lens =>
      have h_dvd : bs ∣ len := by
        refine h_first.resolve_left fun h_lt => ?_
        -- the reader has not moved: the next segment starts where this one did
        have h_rest := (h_split fun i => if i = b * bs then a else 0).2
        have h_at := congrArg (fun l => l[0]?) h_rest
        simp only [Nat.div_eq_of_lt h_lt, Nat.add_zero] at h_at
        have h_sum : 0 < (len' :: lens).sum := by
          have := (List.forall_mem_cons.mp h_lens).1
          simp
          omega
        rw [pieces_head hbs (List.forall_mem_cons.mp h_lens).1,
          List.getElem?_eq_getElem (by simpa using h_sum), Medium.getElem_slice] at h_at
        rw [if_pos rfl, if_neg (by omega)] at h_at
        exact ha (Option.some.inj h_at)
      have h_next : (b + len / bs) * bs = b * bs + len := by
        rw [Nat.add_mul, Nat.div_mul_cancel h_dvd]
      refine ⟨h_dvd, ih h_lens (b + len / bs) fun m => ?_⟩
      rw [h_next]
      exact (h_split m).2

/-- **Segments of one size.** Either there is only one, or the size is a number
of blocks; and the last one is a number of blocks or less than one. -/
theorem aligned_cut_iff {bs cap : ℕ} (hcap : 0 < cap) (n : ℕ) :
    Aligned bs (cut cap n) ↔
      (n ≤ cap ∨ bs ∣ cap) ∧ (lastLength cap n < bs ∨ bs ∣ lastLength cap n) := by
  induction n using Nat.strong_induction_on with
  | _ n ih =>
    rcases Nat.eq_zero_or_pos n with rfl | h_pos
    · simp [Aligned, lastLength]
    by_cases h_one : n ≤ cap
    · have h_last : lastLength cap n = n := by
        rw [lastLength, Nat.div_eq_of_lt (by omega), Nat.zero_mul, Nat.sub_zero]
      rw [cut_of_pos hcap h_pos, min_eq_right h_one, Nat.sub_self, cut_zero, h_last]
      simp [Aligned, h_one]
    · have h_rest : cut cap (n - cap) ≠ [] := by
        rw [cut_of_pos hcap (by omega)]
        simp
      have h_last : lastLength cap (n - cap) = lastLength cap n := by
        have h_div : (n - 1) / cap = (n - cap - 1) / cap + 1 := by
          rw [Nat.div_eq_sub_div hcap (by omega), show n - 1 - cap = n - cap - 1 by omega]
        rw [lastLength, lastLength, h_div, Nat.add_mul, Nat.one_mul]
        omega
      rw [cut_of_pos hcap h_pos, min_eq_left (by omega), aligned_cons h_rest,
        ih (n - cap) (by omega), h_last]
      tauto

end Segments
