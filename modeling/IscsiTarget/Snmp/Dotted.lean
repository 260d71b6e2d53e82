import IscsiTarget.Model.SnmpData
import IscsiTarget.Numerals

/-!
# OIDs and their texts

An OID is a list of numbers, its arcs, and `dotted` is its text. The tree works on texts: it
cuts one at the dots (`split_dotted`), puts one together again from the parts on the way down
(`curOid_dotted`) and takes the last number off it to order the children of a node by
(`treeIdx_dotted`). For canonical texts all three are what they are for lists.
-/

namespace IscsiTarget

open SnmpDataType

/-- The text of an OID: its arcs, with dots between them. -/
def dotted : List ℕ → Bytes
  | [] => []
  | [a] => unsignedText a
  | a :: b :: o => unsignedText a ++ 46 :: dotted (b :: o)

theorem dotted_cons {a : ℕ} {o : List ℕ} (h : o ≠ []) :
    dotted (a :: o) = unsignedText a ++ 46 :: dotted o := by
  cases o with
  | nil => exact absurd rfl h
  | cons b o => rfl

theorem dotted_ne_nil {o : List ℕ} (h : o ≠ []) : dotted o ≠ [] := by
  obtain ⟨a, o, rfl⟩ := List.exists_cons_of_ne_nil h
  cases o with
  | nil => exact unsignedText_ne_nil a
  | cons b o =>
    rw [dotted_cons (List.cons_ne_nil b o)]
    exact List.append_ne_nil_of_left_ne_nil (unsignedText_ne_nil a) _

/-! ### Cutting a text -/

theorem findBytes_dot (s : Bytes) : findBytes (ascii ".") s = findChar 46 s := by
  induction s with
  | nil => rfl
  | cons b s ih =>
    have h_dot : (ascii ".").isPrefixOf (b :: s) = (b == 46) := by
      show ([46] : Bytes).isPrefixOf (b :: s) = (b == 46)
      rw [List.isPrefixOf_cons_cons, List.isPrefixOf_nil_left, Bool.and_true, Bool.beq_comm]
    rw [findBytes, ih, h_dot, findChar, findChar, List.findIdx?_cons]

/-- A dot after text without dots. -/
theorem splitLoop_dot {turns : ℕ} {s rest : Bytes} (h : (46 : UInt8) ∉ s) (h_rest : rest ≠ []) :
    splitLoop (ascii ".") (turns + 1) (s ++ 46 :: rest) =
      s :: splitLoop (ascii ".") turns rest := by
  have h_find : findBytes (ascii ".") (s ++ 46 :: rest) = some s.length := by
    rw [findBytes_dot, findChar_append h]
  have h_drop : (s ++ 46 :: rest).drop (s.length + (ascii ".").length) = rest := by
    rw [← List.drop_drop, List.drop_left]
    rfl
  rw [splitLoop, h_find]
  dsimp only
  rw [h_drop, if_neg (by rwa [List.length_eq_zero_iff]), List.take_left]

/-- The last part. -/
theorem splitLoop_last {turns : ℕ} {s : Bytes} (h : (46 : UInt8) ∉ s) (h_ne : s ≠ []) :
    splitLoop (ascii ".") (turns + 1) s = [s] := by
  rw [splitLoop, findBytes_dot, findChar_of_notMem h]
  exact if_pos (List.length_pos_iff.mpr h_ne)

theorem splitLoop_dotted {o : List ℕ} (h : o ≠ []) {turns : ℕ} (h_turns : o.length ≤ turns) :
    splitLoop (ascii ".") turns (dotted o) = o.map unsignedText := by
  induction o generalizing turns with
  | nil => exact absurd rfl h
  | cons a o ih =>
    obtain ⟨turns, rfl⟩ : ∃ t, turns = t + 1 :=
      Nat.exists_eq_add_one_of_ne_zero (by rw [List.length_cons] at h_turns; omega)
    by_cases h_nil : o = []
    · subst h_nil
      exact splitLoop_last (dot_notMem_unsignedText a) (unsignedText_ne_nil a)
    · rw [dotted_cons h_nil, splitLoop_dot (dot_notMem_unsignedText a) (dotted_ne_nil h_nil),
        ih h_nil (Nat.le_of_succ_le_succ h_turns), List.map_cons]

theorem length_le_dotted (o : List ℕ) : o.length ≤ (dotted o).length := by
  induction o with
  | nil => exact le_rfl
  | cons a o ih =>
    have h_pos : 0 < (unsignedText a).length := List.length_pos_iff.mpr (unsignedText_ne_nil a)
    cases o with
    | nil => exact h_pos
    | cons b o =>
      rw [dotted_cons (List.cons_ne_nil b o), List.length_append, List.length_cons]
      have h_cons : (46 :: dotted (b :: o)).length = (dotted (b :: o)).length + 1 := rfl
      omega

/-- Cut at its dots, a text gives the texts of the arcs. -/
theorem split_dotted {o : List ℕ} (h : o ≠ []) :
    split (dotted o) (ascii ".") = o.map unsignedText :=
  splitLoop_dotted h ((length_le_dotted o).trans (Nat.le_succ _))

theorem unsignedText_injective : Function.Injective unsignedText := by
  intro a b h
  rw [← decimal_unsignedText a, h, decimal_unsignedText]

/-- Different OIDs have different texts. -/
theorem dotted_injective : Function.Injective dotted := by
  intro o o' h
  by_cases h_o : o = []
  · by_contra h_ne
    subst h_o
    exact dotted_ne_nil (Ne.symm h_ne) h.symm
  · have h_o' : o' ≠ [] := by
      rintro rfl
      exact dotted_ne_nil h_o h
    have h_parts := congrArg (split · (ascii ".")) h
    simp only [split_dotted h_o, split_dotted h_o'] at h_parts
    exact List.map_injective_iff.mpr unsignedText_injective h_parts

/-! ### Putting a text together -/

/-- One part further down: what the loops put together as the OID of a child is
its path, written with dots. -/
theorem curOid_dotted (path : List ℕ) (a : ℕ) :
    curOid (dotted path) (unsignedText a) = dotted (path ++ [a]) := by
  induction path with
  | nil => rfl
  | cons b path ih =>
    have h_next : dotted (b :: path ++ [a]) = unsignedText b ++ 46 :: dotted (path ++ [a]) :=
      dotted_cons (List.append_ne_nil_of_right_ne_nil path (List.cons_ne_nil a []))
    rw [h_next, ← ih, curOid, if_neg (dotted_ne_nil (List.cons_ne_nil b path))]
    cases path with
    | nil => simp [curOid, dotted]
    | cons c path =>
      rw [curOid, if_neg (dotted_ne_nil (List.cons_ne_nil c path)),
        dotted_cons (List.cons_ne_nil c path)]
      simp

/-- What comes after the same text differs in its last part. -/
theorem curOid_injective (cur : Bytes) : Function.Injective (curOid cur) :=
  fun _ _ h => List.append_cancel_left h

/-! ### The index of a node -/

/-- `rfind` finds the last dot. -/
theorem rfindChar_append {c : UInt8} {s rest : Bytes} (h : c ∉ rest) :
    rfindChar c (s ++ c :: rest) = some s.length := by
  have h_reverse : (s ++ c :: rest).reverse = rest.reverse ++ c :: s.reverse := by simp
  rw [rfindChar, h_reverse, findChar_append (by simpa using h), List.length_reverse,
    Option.map_some, List.length_append, List.length_cons]
  congr 1
  omega

/-- The index of a node is its last arc, except at the top. There the text has
no dot, and the index stays zero. -/
theorem treeIdx_dotted {path : List ℕ} {a : ℕ} (ha : a < 2 ^ 31) :
    treeIdx (dotted (path ++ [a])) = if path = [] then 0 else (a : ℤ) := by
  rw [← curOid_dotted]
  split
  · next h =>
    subst h
    have h_find : rfindChar 46 (unsignedText a) = none := by
      rw [rfindChar, findChar_of_notMem (by simpa using dot_notMem_unsignedText a)]
      rfl
    rw [dotted, curOid, if_pos rfl, List.nil_append, treeIdx, h_find]
  · next h =>
    have h_drop : (dotted path ++ 46 :: unsignedText a).drop ((dotted path).length + 1) =
        unsignedText a := by
      rw [← List.drop_drop, List.drop_left]
      rfl
    have h_read : strtoll (unsignedText a ++ []) = a :=
      strtoll_unsignedText (by omega) (fun b hb => by cases hb)
    rw [List.append_nil] at h_read
    rw [curOid, if_neg (dotted_ne_nil h), List.append_assoc, List.singleton_append, treeIdx,
      rfindChar_append (dot_notMem_unsignedText a)]
    dsimp only
    rw [h_drop, atoi, h_read]
    exact Int.bmod_eq_of_le (by omega) (by omega)

end IscsiTarget
