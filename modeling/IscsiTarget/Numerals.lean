import IscsiTarget.Model.Text

/-!
# Numbers in text

The target prints a number with `%d` and reads it back with `atoi` or `atoll`. What it
prints consists of digits and perhaps a sign, so that reading stops at the first other
character and gives the number back (`strtoll_unsignedText`, `strtoll_signedText`).
-/

namespace IscsiTarget

/-! ### Digits -/

/-- How many digits a number has. -/
def decimalLength (n : ℕ) : ℕ := if n = 0 then 1 else (Nat.digits 10 n).length

@[simp] theorem length_unsignedText (n : ℕ) : (unsignedText n).length = decimalLength n := by
  unfold unsignedText decimalLength
  split <;> simp

theorem decimalLength_pos (n : ℕ) : 0 < decimalLength n := by
  unfold decimalLength
  split
  · exact Nat.one_pos
  · next h =>
    rw [List.length_pos_iff, Ne, Nat.digits_eq_nil_iff_eq_zero]
    exact h

theorem unsignedText_ne_nil (n : ℕ) : unsignedText n ≠ [] := by
  rw [← List.length_pos_iff, length_unsignedText]
  exact decimalLength_pos n

theorem lt_pow_decimalLength (n : ℕ) : n < 10 ^ decimalLength n := by
  unfold decimalLength
  split
  · next h =>
    subst h
    norm_num
  · exact Nat.lt_base_pow_length_digits (by norm_num)

/-- A digit character says what it stands for. -/
theorem toNat_digit {d : ℕ} (h : d < 10) : (UInt8.ofNat (48 + d)).toNat = 48 + d :=
  UInt8.toNat_ofNat_of_lt (show 48 + d < 256 by omega)

theorem isDigit_of_mem {n : ℕ} {b : UInt8} (h : b ∈ unsignedText n) : isDigit b = true := by
  unfold unsignedText at h
  split at h
  · rw [List.mem_singleton.mp h]
    rfl
  · obtain ⟨d, h_mem, rfl⟩ := List.mem_map.mp h
    have h_lt : d < 10 := Nat.digits_lt_base (by norm_num) (List.mem_reverse.mp h_mem)
    have h_toNat := toNat_digit h_lt
    simp only [isDigit, Bool.and_eq_true, decide_eq_true_eq, UInt8.le_iff_toNat_le, h_toNat]
    exact ⟨Nat.le_add_right 48 d, by show 48 + d ≤ 57; omega⟩

@[simp] theorem decimal_unsignedText (n : ℕ) : decimal (unsignedText n) = n := by
  unfold unsignedText
  split
  · next h => exact h.symm
  · unfold decimal
    rw [List.foldl_map, List.foldl_reverse]
    have h_foldr : ∀ ds : List ℕ, (∀ d ∈ ds, d < 10) →
        ds.foldr (fun d v => v * 10 + ((UInt8.ofNat (48 + d)).toNat - 48)) 0 =
          Nat.ofDigits 10 ds := by
      intro ds
      induction ds with
      | nil => exact fun _ => rfl
      | cons d ds ih =>
        intro h_lt
        rw [List.foldr_cons, ih fun d' h => h_lt d' (List.mem_cons_of_mem d h),
          toNat_digit (h_lt d List.mem_cons_self), Nat.ofDigits_cons]
        omega
    rw [h_foldr _ fun d h => Nat.digits_lt_base (by norm_num) h, Nat.ofDigits_digits]

/-! ### Reading a number back -/

/-- The text goes on with something that is not a digit, or ends. -/
def NoDigitHead (rest : Bytes) : Prop := ∀ b ∈ rest.head?, isDigit b = false

theorem takeWhile_isDigit {ds rest : Bytes} (h : ∀ d ∈ ds, isDigit d = true)
    (h_rest : NoDigitHead rest) : (ds ++ rest).takeWhile isDigit = ds := by
  rw [List.takeWhile_append_of_pos h]
  cases rest with
  | nil => simp
  | cons b rest => simp [h_rest b rfl]

theorem isSpace_of_isDigit {b : UInt8} (h : isDigit b = true) : isSpace b = false := by
  simp only [isDigit, Bool.and_eq_true, decide_eq_true_eq] at h
  obtain ⟨h_le, -⟩ := h
  simp only [isSpace, Bool.or_eq_false_iff, beq_eq_false_iff_ne, Bool.and_eq_false_iff,
    decide_eq_false_iff_not]
  rw [UInt8.le_iff_toNat_le] at h_le
  have h_48 : (48 : UInt8).toNat = 48 := rfl
  refine ⟨fun h_eq => ?_, .inr fun h_13 => ?_⟩
  · rw [h_eq] at h_le
    exact absurd h_le (by decide)
  · rw [UInt8.le_iff_toNat_le] at h_13
    have h_13' : (13 : UInt8).toNat = 13 := rfl
    omega

theorem strtoll_digits {ds rest : Bytes} (h : ∀ d ∈ ds, isDigit d = true) (h_ne : ds ≠ [])
    (h_rest : NoDigitHead rest) : strtoll (ds ++ rest) = min (decimal ds : ℤ) (2 ^ 63 - 1) := by
  obtain ⟨d, ds, rfl⟩ := List.exists_cons_of_ne_nil h_ne
  have h_d := h d List.mem_cons_self
  have h_while := takeWhile_isDigit h h_rest
  have h_space : ((d :: ds) ++ rest).dropWhile isSpace = d :: (ds ++ rest) := by
    rw [List.cons_append, List.dropWhile_cons_of_neg (by simp [isSpace_of_isDigit h_d])]
  unfold strtoll
  rw [h_space]
  dsimp only
  split
  · next h_eq => cases h_eq; exact absurd h_d (by decide)
  · next h_eq => cases h_eq; exact absurd h_d (by decide)
  · rw [← List.cons_append, h_while]
    have h_lo : (-2 ^ 63 : ℤ) ≤ min (decimal (d :: ds) : ℤ) (2 ^ 63 - 1) :=
      le_min ((by norm_num : (-2 ^ 63 : ℤ) ≤ 0).trans (Int.natCast_nonneg _)) (by norm_num)
    exact max_eq_right h_lo

theorem strtoll_minus {ds rest : Bytes} (h : ∀ d ∈ ds, isDigit d = true)
    (h_rest : NoDigitHead rest) :
    strtoll (45 :: ds ++ rest) = max (-2 ^ 63) (-(decimal ds : ℤ)) := by
  have h_while := takeWhile_isDigit h h_rest
  show max (-2 ^ 63) (min (-(decimal ((ds ++ rest).takeWhile isDigit) : ℤ)) (2 ^ 63 - 1)) = _
  rw [h_while, min_eq_left]
  have h_nonneg : (0 : ℤ) ≤ decimal ds := Int.natCast_nonneg _
  omega

/-- In front of a dot there is no number. -/
theorem strtoll_dot (rest : Bytes) : strtoll (46 :: rest) = 0 := by
  show max (-2 ^ 63) (min (0 : ℤ) (2 ^ 63 - 1)) = 0
  norm_num

theorem strtoll_unsignedText {n : ℕ} {rest : Bytes} (h : n < 2 ^ 63) (h_rest : NoDigitHead rest) :
    strtoll (unsignedText n ++ rest) = n := by
  rw [strtoll_digits (fun d => isDigit_of_mem) (unsignedText_ne_nil n) h_rest,
    decimal_unsignedText, min_eq_left]
  omega

theorem strtoll_signedText {v : ℤ} {rest : Bytes} (h_lo : -2 ^ 63 ≤ v) (h_hi : v < 2 ^ 63)
    (h_rest : NoDigitHead rest) : strtoll (signedText v ++ rest) = v := by
  unfold signedText
  split
  · rw [strtoll_minus (fun d => isDigit_of_mem) h_rest, decimal_unsignedText, max_eq_right]
    · omega
    · omega
  · rw [strtoll_unsignedText (by omega) h_rest]
    omega

/-! ### Dots -/

/-- What a printed number has no dot in. -/
theorem dot_notMem_unsignedText (n : ℕ) : (46 : UInt8) ∉ unsignedText n :=
  fun h => absurd (isDigit_of_mem h) (by decide)

theorem dot_notMem_signedText (v : ℤ) : (46 : UInt8) ∉ signedText v := by
  unfold signedText
  split
  · rw [List.mem_cons, not_or]
    exact ⟨by decide, dot_notMem_unsignedText _⟩
  · exact dot_notMem_unsignedText _

/-- `find` stops at the first dot. -/
theorem findChar_append {c : UInt8} {s rest : Bytes} (h : c ∉ s) :
    findChar c (s ++ c :: rest) = some s.length := by
  unfold findChar
  rw [List.findIdx?_append, List.findIdx?_eq_none_iff.mpr fun x hx => by
    simpa using ne_of_mem_of_not_mem hx h, List.findIdx?_cons]
  simp

theorem findChar_of_notMem {c : UInt8} {s : Bytes} (h : c ∉ s) : findChar c s = none :=
  List.findIdx?_eq_none_iff.mpr fun x hx => by simpa using ne_of_mem_of_not_mem hx h

end IscsiTarget
