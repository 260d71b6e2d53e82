import IscsiTarget.Lib.Occurrence
import IscsiTarget.Model.Text

/-!
# Cutting a text apart

`split` looks for the separator, puts what is in front of it into its result and goes on
behind it. A turn that goes on has a shorter text left, so the loop ends (`splitTurns_eq`), and
what holds of a text follows from what holds of the rest behind the first separator
(`split_induction`). Joined with the separator, the parts are the text again; none of them holds
the separator, and there is one more of them than the separator occurs: `split_faithful`.
-/

namespace IscsiTarget

open Occurrence

/-! ### Finding the separator -/

theorem findBytes_first {sep s : Bytes} {pos : ℕ} (h : findBytes sep s = some pos) :
    First sep s pos := by
  -- on the text: the separator is at its front, or it is found further on
  induction s generalizing pos with
  | nil =>
    rw [findBytes] at h
    split at h
    · next h_sep =>
      cases h
      rw [h_sep]
      exact ⟨List.nil_prefix, fun j h_lt => absurd h_lt (Nat.not_lt_zero j)⟩
    · cases h
  | cons b s ih =>
    rw [findBytes] at h
    split at h
    · next h_prefix =>
      cases h
      exact ⟨List.isPrefixOf_iff_prefix.mp h_prefix, fun j h_lt => absurd h_lt (Nat.not_lt_zero j)⟩
    · next h_not =>
      obtain ⟨pos', h_find, rfl⟩ := Option.map_eq_some_iff.mp h
      exact (ih h_find).cons fun h_prefix => h_not (List.isPrefixOf_iff_prefix.mpr h_prefix)

theorem not_infix_of_findBytes {sep s : Bytes} (h : findBytes sep s = none) : ¬ sep <:+: s := by
  induction s with
  | nil =>
    rw [findBytes] at h
    intro h_infix
    rw [if_pos (List.infix_nil.mp h_infix)] at h
    cases h
  | cons b s ih =>
    rw [findBytes] at h
    split at h
    · cases h
    · next h_not =>
      -- neither at the front nor anywhere behind
      rw [List.infix_cons_iff, not_or]
      exact ⟨fun h_prefix => h_not (List.isPrefixOf_iff_prefix.mpr h_prefix),
        ih (Option.map_eq_none_iff.mp h)⟩

/-! ### The turns of the loop -/

variable {sep s : Bytes} {pos : ℕ}

/-- A turn takes at least the separator off. -/
theorem length_rest_lt (h_sep : sep ≠ []) (h : findBytes sep s = some pos) :
    (s.drop (pos + sep.length)).length < s.length := by
  have h_len := congrArg List.length (findBytes_first h).append
  have h_pos := List.length_pos_iff.mpr h_sep
  rw [List.length_append, List.length_append] at h_len
  omega

theorem ne_nil_of_findBytes (h_sep : sep ≠ []) (h : findBytes sep s = some pos) : s ≠ [] :=
  List.ne_nil_of_length_pos (Nat.zero_lt_of_lt (length_rest_lt h_sep h))

/-- More turns than bytes are enough, and how many there are then makes no
difference. By induction on the turns. -/
theorem splitLoop_eq (h_sep : sep ≠ []) {turns turns' : ℕ} (h : s.length < turns)
    (h' : s.length < turns') : splitLoop sep turns s = splitLoop sep turns' s := by
  induction turns generalizing turns' s with
  | zero => exact absurd h (Nat.not_lt_zero _)
  | succ turns ih =>
    obtain ⟨turns', rfl⟩ := Nat.exists_eq_add_one_of_ne_zero (Nat.ne_zero_of_lt h')
    rw [splitLoop, splitLoop]
    cases h_find : findBytes sep s with
    | none => rfl
    | some pos =>
      -- a separator that is not empty takes at least one byte off
      have h_lt := length_rest_lt h_sep h_find
      dsimp only
      rw [ih (by omega) (by omega : _ < turns')]

/-- The separator does not occur. -/
theorem split_of_none (h : findBytes sep s = none) :
    split s sep = if s = [] then [] else [s] := by
  rw [split, splitLoop, h]
  cases s with
  | nil => rfl
  | cons b s => rfl

/-- Nothing is behind the separator: an empty part ends the result. -/
theorem split_of_last (h : findBytes sep s = some pos) (h_rest : s.drop (pos + sep.length) = []) :
    split s sep = [s.take pos, []] := by
  rw [split, splitLoop, h]
  dsimp only
  rw [if_pos (List.length_eq_zero_iff.mpr h_rest)]

/-- The loop goes on behind the separator. -/
theorem split_of_next (h_sep : sep ≠ []) (h : findBytes sep s = some pos)
    (h_rest : s.drop (pos + sep.length) ≠ []) :
    split s sep = s.take pos :: split (s.drop (pos + sep.length)) sep := by
  rw [split, splitLoop, h]
  dsimp only
  rw [if_neg fun h_len => h_rest (List.length_eq_zero_iff.mp h_len),
    splitLoop_eq h_sep (length_rest_lt h_sep h) (Nat.lt_succ_self _)]
  rfl

/-- What holds of a text without the separator, of one with nothing behind its
first separator, and of one when it holds of the rest behind its first
separator, holds of every text. -/
theorem split_induction {motive : Bytes → Prop} (h_sep : sep ≠ [])
    (none : ∀ s, findBytes sep s = none → motive s)
    (last : ∀ s pos, findBytes sep s = some pos → s.drop (pos + sep.length) = [] → motive s)
    (next : ∀ s pos, findBytes sep s = some pos → s.drop (pos + sep.length) ≠ [] →
      motive (s.drop (pos + sep.length)) → motive s) (s : Bytes) : motive s := by
  -- on the length, since what is left is no tail the recursion of a list would give
  induction h_len : s.length using Nat.strong_induction_on generalizing s with
  | h len ih =>
    cases h_find : findBytes sep s with
    | none => exact none s h_find
    | some pos =>
      by_cases h_rest : s.drop (pos + sep.length) = []
      · exact last s pos h_find h_rest
      · exact next s pos h_find h_rest
          (ih _ (h_len ▸ length_rest_lt h_sep h_find) _ rfl)

/-- The loop with the turns it may take; `none` when they do not suffice. Every
turn takes a splitter off the front, so that the length of the string bounds the
number of turns, as long as the splitter is not empty. -/
def splitTurns (splitter : Bytes) : ℕ → Bytes → Option (List Bytes)
  | 0, _ => none
  | turns + 1, inp =>
    match findBytes splitter inp with
    | none => some (if inp.length > 0 then [inp] else [])
    | some pos =>
      let rest := inp.drop (pos + splitter.length)
      if rest.length = 0 then some [inp.take pos, []]
      else (splitTurns splitter turns rest).map (inp.take pos :: ·)

/-- The loop ends, with the result of `split`. -/
-- the loop ends with an empty part, or goes on
theorem splitTurns_eq (h_sep : sep ≠ []) (s : Bytes) {turns : ℕ} (h_turns : s.length < turns) :
    splitTurns sep turns s = some (split s sep) := by
  induction turns generalizing s with
  | zero => exact absurd h_turns (Nat.not_lt_zero _)
  | succ turns ih =>
    rw [splitTurns]
    cases h_find : findBytes sep s with
    | none =>
      rw [split_of_none h_find]
      cases s with
      | nil => rfl
      | cons b s => rfl
    | some pos =>
      dsimp only
      split
      · next h_rest => rw [split_of_last h_find (List.length_eq_zero_iff.mp h_rest)]
      · next h_rest =>
        have h_ne : s.drop (pos + sep.length) ≠ [] :=
          fun h_nil => h_rest (List.length_eq_zero_iff.mpr h_nil)
        have h_lt := length_rest_lt h_sep h_find
        rw [ih _ (by omega), split_of_next h_sep h_find h_ne, Option.map_some]

/-! ### The parts -/

/-- A text has parts. -/
theorem split_ne_nil (h_s : s ≠ []) : split s sep ≠ [] := by
  rw [split, splitLoop]
  split
  · rw [if_pos (List.length_pos_iff.mpr h_s)]
    exact List.cons_ne_nil _ _
  · dsimp only
    split
    · exact List.cons_ne_nil _ _
    · exact List.cons_ne_nil _ _

/-- **The parts of a text**, joined with the separator, are the text. By
induction on its length: a turn takes off a part and a separator. -/
theorem intercalate_split (h_sep : sep ≠ []) (s : Bytes) :
    sep.intercalate (split s sep) = s := by
  induction s using split_induction h_sep with
  | none s h_find =>
    rw [split_of_none h_find]
    split
    case isTrue h_nil => rw [h_nil]; rfl
    case isFalse => exact List.intercalate_singleton
  -- an empty part is the last one
  | last s pos h_find h_rest =>
    have h_cut := (findBytes_first h_find).append
    rw [h_rest] at h_cut
    rw [split_of_last h_find h_rest, List.intercalate_cons_cons, List.intercalate_singleton,
      List.append_assoc]
    exact h_cut
  | next s pos h_find h_rest ih =>
    rw [split_of_next h_sep h_find h_rest, List.intercalate_cons_of_ne_nil (split_ne_nil h_rest),
      ih, List.append_assoc]
    exact (findBytes_first h_find).append

/-- No part holds the separator: each ends in front of the first one that is
left in the text. -/
theorem not_infix_of_mem_split (h_sep : sep ≠ []) (s : Bytes) :
    ∀ part ∈ split s sep, ¬ sep <:+: part := by
  have h_empty : ¬ sep <:+: [] := fun h => h_sep (List.infix_nil.mp h)
  induction s using split_induction h_sep with
  | none s h_find =>
    rw [split_of_none h_find]
    split
    case isTrue => exact List.forall_mem_nil _
    case isFalse => exact List.forall_mem_singleton.mpr (not_infix_of_findBytes h_find)
  | last s pos h_find h_rest =>
    rw [split_of_last h_find h_rest, List.forall_mem_cons, List.forall_mem_singleton]
    exact ⟨(findBytes_first h_find).not_infix_take h_sep, h_empty⟩
  | next s pos h_find h_rest ih =>
    rw [split_of_next h_sep h_find h_rest, List.forall_mem_cons]
    exact ⟨(findBytes_first h_find).not_infix_take h_sep, ih⟩

/-- There is one part more than the separator occurs. An empty text has no part,
not even an empty one. -/
theorem length_split (h_sep : sep ≠ []) (s : Bytes) :
    (split s sep).length = if s = [] then 0 else count sep 0 s + 1 := by
  induction s using split_induction h_sep with
  | none s h_find =>
    rw [split_of_none h_find, count_of_not_infix (not_infix_of_findBytes h_find)]
    split <;> rfl
  | last s pos h_find h_rest =>
    rw [split_of_last h_find h_rest, if_neg (ne_nil_of_findBytes h_sep h_find),
      count_of_first (findBytes_first h_find) h_sep, h_rest]
    rfl
  -- one separator, one part, and those of the rest
  | next s pos h_find h_rest ih =>
    rw [split_of_next h_sep h_find h_rest, if_neg (ne_nil_of_findBytes h_sep h_find),
      count_of_first (findBytes_first h_find) h_sep, List.length_cons, ih, if_neg h_rest]

/-- **`split` cuts a text apart.** For a separator that is not empty the loop
ends, the parts are the text, none of them holds the separator, and there are as
many as the separator says. -/
theorem split_faithful {sep : Bytes} (h_sep : sep ≠ []) (s : Bytes) :
    (∀ turns, s.length < turns → splitTurns sep turns s = some (split s sep)) ∧
    sep.intercalate (split s sep) = s ∧
    (∀ part ∈ split s sep, ¬ sep <:+: part) ∧
    (split s sep).length = if s = [] then 0 else count sep 0 s + 1 :=
  ⟨fun _ h_turns => splitTurns_eq h_sep s h_turns, intercalate_split h_sep s,
    not_infix_of_mem_split h_sep s, length_split h_sep s⟩

/-- A separator that overlaps itself, and stands at the end. -/
theorem split_faithful_overlap :
    splitTurns (ascii "aa") 7 (ascii "aaabaa") = some (split (ascii "aaabaa") (ascii "aa")) ∧
    (ascii "aa").intercalate (split (ascii "aaabaa") (ascii "aa")) = ascii "aaabaa" ∧
    (split (ascii "aaabaa") (ascii "aa")).length = 3 := by
  have h := split_faithful (show ascii "aa" ≠ [] by decide) (ascii "aaabaa")
  refine ⟨h.1 7 (by decide), h.2.1, ?_⟩
  rw [h.2.2.2]
  decide

end IscsiTarget
