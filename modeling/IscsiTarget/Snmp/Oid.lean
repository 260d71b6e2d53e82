import IscsiTarget.Model.Snmp
import IscsiTarget.Numerals

/-!
# What the OID encoder writes

`snmp_oid` reads numbers off its text and writes each of them in base 128 into a buffer of
the size of the text. `oidLength` is how many bytes that takes, and `snmpOid_of_le` and
`snmpOid_of_lt` say that the constructor stays inside its buffer exactly when the text is
at least that long.

The texts it is given come from `get_OID`, which prints the sub-identifiers of a request
(`getOID_eq`), so the bytes it takes are known from the sub-identifiers (`oidLength_oidText`).
One below `2 ^ 31` never takes more bytes than it has digits. From `2 ^ 31` on it is printed as
a negative number and read back as a 64-bit one, and takes ten bytes whatever its digits.
-/

namespace IscsiTarget

open Buffer

/-! ### Numbers in base 128 -/

/-- How many bytes a number takes. -/
def baseLength (n : ℕ) : ℕ := if n = 0 then 1 else (Nat.digits 128 n).length

theorem baseLength_le_iff {n k : ℕ} (hk : 0 < k) : baseLength n ≤ k ↔ n < 128 ^ k := by
  unfold baseLength
  split
  · next h =>
    subst h
    exact ⟨fun _ => by positivity, fun _ => hk⟩
  · exact Nat.digits_length_le_iff (by norm_num) n

/-- A 64-bit number takes at most the ten bytes of `temp`. -/
theorem baseLength_le_ten {n : ℕ} (h : n < 2 ^ 64) : baseLength n ≤ 10 :=
  (baseLength_le_iff (by norm_num)).mpr (h.trans (by norm_num))

/-- The digits go into `temp` one after the other. There are as many turns as
the number has digits to the base 128, and none for zero. -/
theorem oidPutLoop_eq (temp : Bytes) (tempO v : ℕ)
    (h : tempO + (Nat.digits 128 v).length ≤ temp.length) :
    ∃ temp', oidPutLoop temp tempO v = some (temp', tempO + (Nat.digits 128 v).length) ∧
      temp'.length = temp.length := by
  -- on the number, which loses a digit at each turn
  induction v using Nat.strongRecOn generalizing temp tempO with
  | ind v ih =>
    rw [oidPutLoop]
    by_cases hv : v = 0
    · subst hv
      exact ⟨temp, by simp, rfl⟩
    · have h_digits : (Nat.digits 128 v).length = (Nat.digits 128 (v / 128)).length + 1 := by
        rw [Nat.digits_eq_cons_digits_div (by norm_num) hv, List.length_cons]
      obtain ⟨temp₁, h_poke, h_len⟩ :=
        exists_put (UInt8.ofNat (v % 128)) (show tempO < temp.length by omega)
      obtain ⟨temp₂, h_rest, h_len₂⟩ :=
        ih (v / 128) (Nat.div_lt_self (Nat.pos_of_ne_zero hv) (by norm_num)) temp₁ (tempO + 1)
          (by omega)
      refine ⟨temp₂, ?_, h_len₂.trans h_len⟩
      rw [dif_neg hv, h_poke]
      show oidPutLoop temp₁ (tempO + 1) (v / 128) = _
      rw [h_rest, h_digits]
      congr 2
      omega

theorem oidPut_eq {temp : Bytes} {v : ℕ} (h_temp : temp.length = 10) (hv : v < 2 ^ 64) :
    ∃ temp', oidPut temp v = some (temp', baseLength v) ∧ temp'.length = 10 := by
  have h_le := baseLength_le_ten hv
  unfold oidPut baseLength at *
  split
  · obtain ⟨temp', h_poke, h_len⟩ := exists_put (0 : UInt8) (show 0 < temp.length by omega)
    exact ⟨temp', by rw [h_poke]; rfl, h_len.trans h_temp⟩
  · next h_ne =>
    rw [if_neg h_ne] at h_le
    obtain ⟨temp', h_loop, h_len⟩ := oidPutLoop_eq temp 0 v (by omega)
    exact ⟨temp', by rw [h_loop, Nat.zero_add], h_len.trans h_temp⟩

/-! ### The buffer of the text -/

theorem oidFlushLoop_of_le (temp : Bytes) {tempO p : ℕ} {v : Bytes} (h : p + tempO ≤ v.length) :
    ∃ v', oidFlushLoop temp tempO v p = some (v', p + tempO) ∧ v'.length = v.length := by
  -- on the digits, the last one first
  induction tempO generalizing v p with
  | zero => exact ⟨v, rfl, rfl⟩
  | succ t ih =>
    obtain ⟨v₁, h_poke, h_len⟩ := exists_put (temp.getD t 0 ||| if t = 0 then 0 else 128)
      (show p < v.length by omega)
    obtain ⟨v₂, h_rest, h_len₂⟩ := ih (v := v₁) (p := p + 1) (by omega)
    refine ⟨v₂, ?_, h_len₂.trans h_len⟩
    rw [oidFlushLoop, h_poke]
    show oidFlushLoop temp t v₁ (p + 1) = _
    rw [h_rest, Nat.add_assoc, Nat.add_comm 1 t]

theorem oidFlushLoop_of_lt (temp : Bytes) {tempO p : ℕ} {v : Bytes} (h_p : p ≤ v.length)
    (h : v.length < p + tempO) : oidFlushLoop temp tempO v p = none := by
  induction tempO generalizing v p with
  | zero => omega
  | succ t ih =>
    rw [oidFlushLoop]
    -- the buffer ends here, or at one of the next digits
    by_cases h_lt : p < v.length
    · obtain ⟨v₁, h_poke, h_len⟩ :=
        exists_put (temp.getD t 0 ||| if t = 0 then 0 else 128) h_lt
      rw [h_poke]
      exact ih (v := v₁) (p := p + 1) (by omega) (by omega)
    · rw [put_of_le _ (by omega)]
      rfl

/-- What is behind the first dot. -/
def afterDot (work : Bytes) : Bytes :=
  match findChar 46 work with
  | none => []
  | some dot => work.drop (dot + 1)

theorem afterDot_length {work : Bytes} (h : work ≠ []) : (afterDot work).length < work.length := by
  have h_pos := List.length_pos_iff.mpr h
  unfold afterDot
  split
  · exact h_pos
  · simp only [List.length_drop]
    omega

/-- The numbers the outer loop reads off the text, as `uint64_t`. `atoll` stops
at the next dot, and each turn goes on behind it. -/
def oidNumbers (work : Bytes) : List ℕ :=
  if _h : work = [] then []
  else longToUint64 (atoll work) :: oidNumbers (afterDot work)
termination_by work.length
decreasing_by exact afterDot_length _h

/-- A turn of the outer loop: the next number, and then what is behind the dot.
The two buffers are handed on. -/
theorem oidLoop_of_ne {work temp v : Bytes} {p : ℕ} (h : work ≠ []) :
    oidLoop work temp v p =
      (oidPut temp (longToUint64 (atoll work))).bind fun x =>
        (oidFlushLoop x.1 x.2 v p).bind fun y => oidLoop (afterDot work) x.1 y.1 y.2 := by
  rw [oidLoop, if_neg h]
  show Option.bind _ _ = Option.bind _ _
  congr 1
  funext ⟨temp₁, tempO⟩
  show Option.bind _ _ = Option.bind _ _
  congr 1
  funext ⟨v₁, p₁⟩
  unfold afterDot
  dsimp only
  -- the loop ends where there is no further dot
  split
  · next h_dot =>
    rw [h_dot]
    exact (by rw [oidLoop, if_pos rfl] : oidLoop [] temp₁ v₁ p₁ = some (v₁, p₁)).symm
  · next dot h_dot => rw [h_dot]

/-- How many bytes numbers take. -/
def numbersLength (ns : List ℕ) : ℕ := (ns.map baseLength).sum

theorem numbersLength_of_ne {work : Bytes} (h : work ≠ []) :
    numbersLength (oidNumbers work) =
      baseLength (longToUint64 (atoll work)) + numbersLength (oidNumbers (afterDot work)) := by
  rw [oidNumbers, dif_neg h]
  rfl

theorem longToUint64_lt (v : ℤ) : longToUint64 v < 2 ^ 64 := by
  unfold longToUint64
  have h_pos := Int.emod_nonneg v (show (2 : ℤ) ^ 64 ≠ 0 by norm_num)
  have h_lt := Int.emod_lt_of_pos v (show (0 : ℤ) < 2 ^ 64 by norm_num)
  omega

/-- The outer loop writes all the numbers when there is room for them, and
leaves the buffer when there is not. -/
theorem oidLoop_spec (work : Bytes) {temp v : Bytes} {p : ℕ} (h_temp : temp.length = 10)
    (h_p : p ≤ v.length) :
    (p + numbersLength (oidNumbers work) ≤ v.length →
      ∃ v', oidLoop work temp v p = some (v', p + numbersLength (oidNumbers work)) ∧
        v'.length = v.length) ∧
    (v.length < p + numbersLength (oidNumbers work) → oidLoop work temp v p = none) := by
  induction h_n : work.length using Nat.strongRecOn generalizing work temp v p with
  | ind n ih =>
    subst h_n
    by_cases h_work : work = []
    · -- nothing is left of the text
      subst h_work
      rw [oidLoop, oidNumbers, if_pos rfl, dif_pos rfl]
      exact ⟨fun _ => ⟨v, rfl, rfl⟩, fun h => absurd h (Nat.not_lt.mpr h_p)⟩
    rw [oidLoop_of_ne h_work, numbersLength_of_ne h_work]
    obtain ⟨temp₁, h_put, h_temp₁⟩ := oidPut_eq h_temp (longToUint64_lt (atoll work))
    rw [h_put, Option.bind_some]
    generalize baseLength (longToUint64 (atoll work)) = k
    by_cases h_room : p + k ≤ v.length
    · -- the number fits, and the loop goes on with what is behind the dot
      obtain ⟨v₁, h_flush, h_len⟩ := oidFlushLoop_of_le temp₁ h_room
      rw [h_flush, Option.bind_some]
      have h_ih := ih _ (afterDot_length h_work) (afterDot work) h_temp₁ (v := v₁) (p := p + k)
        (by omega) rfl
      rw [h_len, Nat.add_assoc] at h_ih
      exact h_ih
    · -- it does not fit: the copy out of `temp` leaves the buffer
      rw [oidFlushLoop_of_lt temp₁ h_p (Nat.not_le.mp h_room)]
      exact ⟨fun h => absurd h (by omega), fun _ => rfl⟩

/-! ### The constructor -/

/-- How many bytes `snmp_oid` writes for a text. -/
def oidLength (oid : Bytes) : ℕ :=
  if oid.take 4 = ascii "1.3." then 1 + numbersLength (oidNumbers (oid.drop 4))
  else numbersLength (oidNumbers oid)

/-- What the constructor does, by the room the text leaves. Its buffer is as
long as the text, and an encoding that is longer goes over the end. -/
theorem snmpOid_spec (oid : Bytes) :
    (oidLength oid ≤ oid.length →
      ∃ v, snmpOid oid = some (.oid v (UInt8.ofNat (oidLength oid + 2)))) ∧
    (oid.length < oidLength oid → snmpOid oid = none) := by
  unfold snmpOid oidLength
  dsimp only
  have h_new : (newBuffer oid.length).length = oid.length := List.length_replicate
  have h_temp : (newBuffer 10).length = 10 := List.length_replicate
  split
  · next h_start =>
    -- a text that starts with `1.3.` has room for the byte that stands for it
    have h_four : 4 ≤ oid.length := by
      have h := congrArg List.length h_start
      have h_ascii : (ascii "1.3.").length = 4 := rfl
      rw [List.length_take, h_ascii] at h
      omega
    obtain ⟨v, h_poke, h_len⟩ :=
      exists_put (43 : UInt8) (show 0 < (newBuffer oid.length).length by omega)
    rw [h_new] at h_len
    -- the loop writes behind that byte
    obtain ⟨h_le, h_lt⟩ := oidLoop_spec (oid.drop 4) (v := v) (p := 1) h_temp (by omega)
    rw [h_len] at h_le h_lt
    refine ⟨fun h => ?_, fun h => ?_⟩
    · obtain ⟨v', h_loop, -⟩ := h_le h
      exact ⟨v', by simp only [h_poke, h_loop, bind, Option.bind]⟩
    · simp only [h_poke, h_lt h, bind, Option.bind]
  · -- any other text is written from the start
    obtain ⟨h_le, h_lt⟩ :=
      oidLoop_spec oid (v := newBuffer oid.length) (p := 0) h_temp (Nat.zero_le _)
    rw [h_new, Nat.zero_add] at h_le h_lt
    refine ⟨fun h => ?_, fun h => ?_⟩
    · obtain ⟨v', h_loop, -⟩ := h_le h
      exact ⟨v', by simp only [h_loop, bind, Option.bind]⟩
    · simp only [h_lt h, bind, Option.bind]

/-! ### The texts of `get_OID` -/

/-- Sub-identifiers as text, each behind a dot. -/
def dottedText (ids : List UInt32) : Bytes := ids.flatMap fun v => 46 :: subIdText v

theorem dottedText_cons (v : UInt32) (ids : List UInt32) :
    dottedText (v :: ids) = 46 :: (subIdText v ++ dottedText ids) := by
  rw [dottedText, List.flatMap_cons, List.cons_append, dottedText]

/-- The text of sub-identifiers. `start` says that the first byte was 43, which
is printed without a dot. -/
def oidText (start : Bool) (ids : List UInt32) : Bytes :=
  if start then ascii "1.3" ++ dottedText ids else dottedText ids

theorem getOidLoop_eq {block : Bytes} {v : UInt32} {oidOut text : Bytes}
    (h : getOidLoop block false v oidOut = some text) :
    ∃ ids, text = oidOut ++ dottedText ids := by
  -- on the bytes: what is printed so far stays in front
  induction block generalizing v oidOut with
  | nil =>
    rw [getOidLoop] at h
    split at h
    · cases h
    · cases h
      exact ⟨[], (List.append_nil _).symm⟩
  | cons curByte block ih =>
    rw [getOidLoop] at h
    split at h
    · -- the last byte of a sub-identifier, which is printed
      obtain ⟨ids, h_text⟩ := ih h
      rw [if_neg (by simp)] at h_text
      refine ⟨(v <<< 7 ||| curByte.toUInt32) :: ids, ?_⟩
      rw [h_text, dottedText_cons, List.append_assoc, List.cons_append]
    · exact ih h

/-- Whatever `get_OID` accepts, it prints the text of some sub-identifiers. What
comes first depends on the first byte. -/
theorem getOID_eq {block text : Bytes} (h : getOID block = some text) :
    ∃ start ids, text = oidText start ids := by
  unfold getOID at h
  cases block with
  | nil =>
    cases h
    exact ⟨false, [], rfl⟩
  | cons curByte block =>
    rw [getOidLoop] at h
    split at h
    · obtain ⟨ids, h_text⟩ := getOidLoop_eq h
      rw [List.nil_append] at h_text
      split at h_text
      · -- 43 is printed as the first two arcs
        exact ⟨true, ids, h_text⟩
      · refine ⟨false, ((0 : UInt32) <<< 7 ||| curByte.toUInt32) :: ids, ?_⟩
        rw [h_text, oidText, if_neg (by simp), dottedText_cons, List.cons_append]
    · -- a first byte with the continuation bit
      obtain ⟨ids, h_text⟩ := getOidLoop_eq h
      exact ⟨false, ids, h_text⟩

/-! ### What they take -/

theorem subIdValue_eq (v : UInt32) :
    subIdValue v = if v.toNat < 2 ^ 31 then (v.toNat : ℤ) else (v.toNat : ℤ) - 2 ^ 32 := by
  have h_lt : v.toNat < 2 ^ 32 := v.toNat_lt
  have h_toNat : v.toBitVec.toNat = v.toNat := rfl
  show v.toBitVec.toInt = _
  rw [BitVec.toInt_eq_toNat_cond, h_toNat]
  split <;> split <;> omega

theorem subIdValue_bounds (v : UInt32) : -2 ^ 31 ≤ subIdValue v ∧ subIdValue v < 2 ^ 31 := by
  have h_lt : v.toNat < 2 ^ 32 := v.toNat_lt
  rw [subIdValue_eq]
  split <;> omega

theorem subIdText_ne_nil (v : UInt32) : subIdText v ≠ [] := by
  rw [subIdText, signedText]
  split
  · exact List.cons_ne_nil _ _
  · exact unsignedText_ne_nil _

theorem noDigitHead_dottedText (ids : List UInt32) : NoDigitHead (dottedText ids) := by
  cases ids with
  | nil => exact fun b hb => by cases hb
  | cons v ids =>
    rw [dottedText_cons]
    intro b hb
    rw [List.head?_cons, Option.mem_some_iff] at hb
    rw [← hb]
    rfl

/-- Behind a sub-identifier the loop finds the ones that follow. There is no dot
in the text of a number, a minus sign included. -/
theorem afterDot_subIdText (v : UInt32) (ids : List UInt32) :
    afterDot (subIdText v ++ dottedText ids) = (dottedText ids).drop 1 := by
  have h_dot : (46 : UInt8) ∉ subIdText v := dot_notMem_signedText _
  unfold afterDot
  -- a sub-identifier has no dot in its text, so the first one is that of the next
  cases ids with
  | nil =>
    rw [show dottedText [] = [] from rfl, List.append_nil, findChar_of_notMem h_dot]
    rfl
  | cons w ids =>
    rw [dottedText_cons, findChar_append h_dot]
    dsimp only
    rw [← List.drop_drop, List.drop_left]

/-- The constructor reads every sub-identifier as it was printed, but in 64
bits. A negative one gets very large in that way. -/
theorem oidNumbers_dottedText (ids : List UInt32) :
    oidNumbers ((dottedText ids).drop 1) = ids.map fun v => longToUint64 (subIdValue v) := by
  induction ids with
  | nil =>
    rw [oidNumbers]
    rfl
  | cons v ids ih =>
    have h_ne : subIdText v ++ dottedText ids ≠ [] :=
      fun h => subIdText_ne_nil v (List.append_eq_nil_iff.mp h).1
    obtain ⟨h_lo, h_hi⟩ := subIdValue_bounds v
    -- `atoll` stops at the dot, and reads the sign too
    have h_atoll : atoll (subIdText v ++ dottedText ids) = subIdValue v :=
      strtoll_signedText (by omega) (by omega) (noDigitHead_dottedText ids)
    rw [dottedText_cons, List.drop_succ_cons, List.drop_zero, oidNumbers, dif_neg h_ne, h_atoll,
      afterDot_subIdText, ih, List.map_cons]

/-- How many more bytes a sub-identifier takes as text, with its dot, than in
the encoding. From `2 ^ 31` on the text has a sign and the encoding ten bytes. -/
def subIdRoom (v : UInt32) : ℤ :=
  if v.toNat < 2 ^ 31 then 1 + decimalLength v.toNat - baseLength v.toNat
  else 2 + decimalLength (2 ^ 32 - v.toNat) - 10

theorem subIdRoom_eq (v : UInt32) :
    subIdRoom v = 1 + (subIdText v).length - baseLength (longToUint64 (subIdValue v)) := by
  have h_v : v.toNat < 2 ^ 32 := v.toNat_lt
  rw [subIdRoom, subIdText, subIdValue_eq]
  split
  · next h =>
    have h_long : longToUint64 (v.toNat : ℤ) = v.toNat := by
      unfold longToUint64
      omega
    have h_text : signedText (v.toNat : ℤ) = unsignedText v.toNat := by
      rw [signedText, if_neg (by omega), Int.natAbs_natCast]
    rw [h_long, h_text, length_unsignedText]
  · next h =>
    have h_long : longToUint64 ((v.toNat : ℤ) - 2 ^ 32) = 2 ^ 64 - (2 ^ 32 - v.toNat) := by
      unfold longToUint64
      omega
    have h_text : signedText ((v.toNat : ℤ) - 2 ^ 32) = 45 :: unsignedText (2 ^ 32 - v.toNat) := by
      have h_abs : ((v.toNat : ℤ) - 2 ^ 32).natAbs = 2 ^ 32 - v.toNat := by omega
      rw [signedText, if_pos (by omega), h_abs]
    have h_ten : baseLength (2 ^ 64 - (2 ^ 32 - v.toNat)) = 10 := by
      refine le_antisymm (baseLength_le_ten (by omega)) ?_
      by_contra h_lt
      -- nine bytes hold what is below `128 ^ 9 = 2 ^ 63`
      have h_nine : 2 ^ 64 - (2 ^ 32 - v.toNat) < 128 ^ 9 :=
        (baseLength_le_iff (by norm_num)).mp (by omega)
      omega
    rw [h_long, h_text, List.length_cons, length_unsignedText, h_ten]
    push_cast
    ring

theorem length_dottedText (ids : List UInt32) :
    ((dottedText ids).length : ℤ) =
      (ids.map subIdRoom).sum +
        numbersLength (ids.map fun v => longToUint64 (subIdValue v)) := by
  -- each sub-identifier has its room, which may be negative, and its encoding
  induction ids with
  | nil => rfl
  | cons v ids ih =>
    have h_room := subIdRoom_eq v
    have h_cons : numbersLength ((v :: ids).map fun v => longToUint64 (subIdValue v)) =
        baseLength (longToUint64 (subIdValue v)) +
          numbersLength (ids.map fun v => longToUint64 (subIdValue v)) := rfl
    rw [dottedText_cons, List.length_cons, List.length_append, h_cons, List.map_cons, List.sum_cons]
    push_cast
    rw [ih]
    omega

/-- The sub-identifiers an OID can be encoded from inside the buffer of its
text: what the first byte and the sub-identifiers leave over adds up to
something that is not negative. An OID that does not start with 43 has a dot in
front, which is read as one more number. -/
def SubIdsFit (start : Bool) (ids : List UInt32) : Prop :=
  ids = [] ∨ 0 ≤ (if start then 2 else -1) + (ids.map subIdRoom).sum

instance (start : Bool) (ids : List UInt32) : Decidable (SubIdsFit start ids) :=
  inferInstanceAs (Decidable (_ ∨ _))

theorem oidLength_oidText (start : Bool) (ids : List UInt32) :
    oidLength (oidText start ids) ≤ (oidText start ids).length ↔ SubIdsFit start ids := by
  have h_length := length_dottedText ids
  cases ids with
  | nil =>
    have h_nil : ∀ start, oidLength (oidText start []) ≤ (oidText start []).length := by
      decide +kernel
    exact ⟨fun _ => .inl rfl, fun _ => h_nil start⟩
  | cons v ids =>
    have h_numbers := oidNumbers_dottedText (v :: ids)
    have h_fit : SubIdsFit start (v :: ids) ↔
        0 ≤ (if start then 2 else -1) + ((v :: ids).map subIdRoom).sum :=
      or_iff_right (List.cons_ne_nil v ids)
    rw [h_fit]
    generalize h_n : numbersLength _ = n at h_length
    generalize h_s : ((v :: ids).map subIdRoom).sum = s at h_length ⊢
    cases start with
    | true =>
      -- behind `1.3` every sub-identifier is printed with its dot, and encoded
      have h_four : oidLength (oidText true (v :: ids)) = 1 + n := by
        have h_drop : (oidText true (v :: ids)).drop 4 = (dottedText (v :: ids)).drop 1 := by
          rw [oidText, if_pos rfl, dottedText_cons]
          rfl
        have h_take : (oidText true (v :: ids)).take 4 = ascii "1.3." := by
          rw [oidText, if_pos rfl, dottedText_cons]
          rfl
        rw [oidLength, if_pos h_take, h_drop, h_numbers, h_n]
      have h_text : (oidText true (v :: ids)).length = 3 + (dottedText (v :: ids)).length := by
        rw [oidText, if_pos rfl, List.length_append]
        rfl
      rw [h_four, h_text, if_pos rfl]
      omega
    | false =>
      -- a text that starts with a dot begins with an empty number, which takes a byte
      have h_one : oidLength (oidText false (v :: ids)) = 1 + n := by
        have h_text : oidText false (v :: ids) = 46 :: (subIdText v ++ dottedText ids) := by
          rw [oidText, if_neg (by simp), dottedText_cons]
        have h_zero : longToUint64 (atoll (46 :: (subIdText v ++ dottedText ids))) = 0 := by
          rw [atoll, strtoll_dot]
          rfl
        have h_after : afterDot (46 :: (subIdText v ++ dottedText ids)) =
            (dottedText (v :: ids)).drop 1 := by
          rw [dottedText_cons, afterDot, show findChar 46 _ = some 0 from rfl]
        rw [h_text, oidLength, if_neg (by simp [ascii]), oidNumbers, dif_neg (List.cons_ne_nil _ _),
          h_zero, h_after, h_numbers, ← h_n]
        rfl
      have h_text : (oidText false (v :: ids)).length = (dottedText (v :: ids)).length := by
        rw [oidText, if_neg (by simp)]
      rw [h_one, h_text, if_neg (by simp)]
      omega

end IscsiTarget
