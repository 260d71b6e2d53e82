import IscsiTarget.Lib.Buffer
import IscsiTarget.Model.Reply

/-!
# Text parameters on the wire

`text_array_to_data` writes strings into a buffer, each with a NUL behind it, and
`data_to_text_array` cuts a data segment at its NULs. The buffer comes first: the two loops of the
encoder agree about its size, and what it holds is `textArrayToData` (`textArrayBuffer_eq`). The
decoder then takes one string after the other off the front, and the encoder puts back what the
decoder has cut; only a NUL missing at the end of the data is added.
-/

namespace IscsiTarget

/-! ### The buffer of the encoder -/

/-- The first loop of `text_array_to_data`. -/
def textArrayLength (kvs : List Bytes) : ℕ := (kvs.map fun kv => kv.length + 1).sum

/-- The second loop of `text_array_to_data`; `none` is a `memcpy` past the end
of the buffer. -/
def textArrayFill : List Bytes → Bytes → ℕ → Option (Bytes × ℕ)
  | [], p, offset => some (p, offset)
  | kv :: kvs, p, offset =>
    (Buffer.blit p offset kv).bind fun p => textArrayFill kvs p (offset + kv.length + 1)

/-- `text_array_to_data` with its buffer, which has room for padding: what it
returns, or `none` when a `memcpy` leaves the buffer or the assertion at the end
fails. -/
def textArrayBuffer (kvs : List Bytes) : Option (Bytes × ℕ) :=
  let len := textArrayLength kvs
  (textArrayFill kvs (List.replicate (len + 4) 0) 0).bind fun res =>
    if res.2 = len then some (res.1, len) else none

theorem textArrayToData_cons (kv : Bytes) (kvs : List Bytes) :
    textArrayToData (kv :: kvs) = kv ++ 0 :: textArrayToData kvs := by
  unfold textArrayToData
  rw [List.flatMap_cons, List.append_assoc]
  rfl

theorem length_textArrayToData (kvs : List Bytes) :
    (textArrayToData kvs).length = textArrayLength kvs := by
  induction kvs with
  | nil => rfl
  | cons kv kvs ih =>
    rw [textArrayToData_cons, List.length_append, List.length_cons, ih]
    unfold textArrayLength
    rw [List.map_cons, List.sum_cons]
    omega

/-- The loop goes on behind what it has written; the NULs are there already,
since the buffer was zero to begin with. By induction on the strings, with what
is written so far as the front. -/
theorem textArrayFill_eq (kvs : List Bytes) (front : Bytes) (room : ℕ) :
    textArrayFill kvs (front ++ List.replicate (textArrayLength kvs + room) 0) front.length =
      some (front ++ (textArrayToData kvs ++ List.replicate room 0),
        front.length + textArrayLength kvs) := by
  induction kvs generalizing front with
  | nil => simp [textArrayFill, textArrayLength, textArrayToData]
  | cons kv kvs ih =>
    have h_len : textArrayLength (kv :: kvs) = kv.length + (1 + textArrayLength kvs) := by
      unfold textArrayLength
      rw [List.map_cons, List.sum_cons, Nat.add_assoc]
    have h_room : List.replicate (textArrayLength (kv :: kvs) + room) (0 : UInt8) =
        List.replicate kv.length 0 ++ 0 :: List.replicate (textArrayLength kvs + room) 0 := by
      rw [← List.replicate_succ, List.replicate_append_replicate, h_len]
      congr 1
      omega
    have h_front : (front ++ (kv ++ [0])).length = front.length + kv.length + 1 := by
      rw [List.length_append, List.length_append, List.length_singleton, Nat.add_assoc]
    rw [textArrayFill, h_room, Buffer.blit_append (List.length_replicate).symm, Option.bind_some,
      textArrayToData_cons, h_len]
    -- the string, and the NUL behind it, now belong to what has been written
    have h_next := ih (front ++ (kv ++ [0]))
    rw [h_front, List.append_assoc, List.append_assoc, List.singleton_append, List.append_assoc]
      at h_next
    have h_offset : front.length + (kv.length + (1 + textArrayLength kvs)) =
        front.length + kv.length + 1 + textArrayLength kvs := by
      omega
    rw [h_next, h_offset, List.append_assoc kv (0 :: textArrayToData kvs), List.append_assoc kv]
    rfl

theorem textArrayBuffer_eq (kvs : List Bytes) :
    textArrayBuffer kvs =
      some (textArrayToData kvs ++ List.replicate 4 0, textArrayLength kvs) := by
  have h_fill := textArrayFill_eq kvs [] 4
  rw [List.nil_append, List.nil_append, List.length_nil, Nat.zero_add] at h_fill
  unfold textArrayBuffer
  dsimp only
  rw [h_fill, Option.bind_some, if_pos rfl]

/-- The bytes it returns. -/
theorem take_textArrayBuffer {kvs : List Bytes} {p : Bytes} {len : ℕ}
    (h : textArrayBuffer kvs = some (p, len)) : p.take len = textArrayToData kvs := by
  rw [textArrayBuffer_eq, Option.some_inj, Prod.mk.injEq] at h
  obtain ⟨rfl, rfl⟩ := h
  exact List.take_left' (length_textArrayToData kvs)

/-! ### The two directions -/

/-- A string and the NUL behind it are taken off the front. -/
theorem dataToTextArrayLoop_append {kv : Bytes} (h : 0 ∉ kv) (pair rest : Bytes) :
    dataToTextArrayLoop pair (kv ++ 0 :: rest) = (pair ++ kv) :: dataToTextArrayLoop [] rest := by
  induction kv generalizing pair with
  | nil => rw [List.nil_append, dataToTextArrayLoop, if_pos rfl, List.append_nil]
  | cons b kv ih =>
    rw [List.mem_cons, not_or] at h
    rw [List.cons_append, dataToTextArrayLoop, if_neg (Ne.symm h.1), ih h.2, List.append_assoc]
    rfl

theorem dataToTextArray_textArrayToData {kvs : List Bytes} (h : ∀ kv ∈ kvs, 0 ∉ kv) :
    dataToTextArray (textArrayToData kvs) = kvs := by
  induction kvs with
  | nil => rfl
  | cons kv kvs ih =>
    rw [List.forall_mem_cons] at h
    rw [textArrayToData_cons, dataToTextArray, dataToTextArrayLoop_append h.1, List.nil_append]
    exact congrArg (kv :: ·) (ih h.2)

/-- Data with a NUL at its end, unless there is no data. -/
def withNul (d : Bytes) : Bytes := if d = [] ∨ d.getLast? = some 0 then d else d ++ [0]

/-- The end of data is the end of its rest: a NUL is put behind what has none,
and it does not matter what is in front. -/
theorem withNul_append_cons (front rest : Bytes) :
    withNul (front ++ 0 :: rest) = front ++ 0 :: withNul rest := by
  unfold withNul
  cases rest with
  | nil =>
    have h_last : (front ++ [(0 : UInt8)]).getLast? = some 0 := List.getLast?_concat
    rw [if_pos (Or.inr h_last), if_pos (Or.inl rfl)]
  | cons b rest =>
    have h_last : (front ++ 0 :: b :: rest).getLast? = (b :: rest).getLast? := by
      rw [List.getLast?_append_cons, List.getLast?_cons_cons]
    have h_ne : front ++ 0 :: b :: rest ≠ [] := List.append_ne_nil_of_right_ne_nil _ (by simp)
    rw [h_last]
    by_cases h_end : (b :: rest).getLast? = some 0
    · rw [if_pos (Or.inr h_end), if_pos (Or.inr h_end)]
    · rw [if_neg (not_or.mpr ⟨h_ne, h_end⟩), if_neg (not_or.mpr ⟨List.cons_ne_nil b rest, h_end⟩),
        List.append_assoc, List.cons_append]

theorem textArrayToData_dataToTextArrayLoop {pair : Bytes} (h : 0 ∉ pair) (d : Bytes) :
    textArrayToData (dataToTextArrayLoop pair d) = withNul (pair ++ d) := by
  induction d generalizing pair with
  | nil =>
    rw [dataToTextArrayLoop, List.append_nil]
    split
    case isTrue h_nil =>
      rw [h_nil]
      rfl
    case isFalse h_nil =>
      -- what is left over does not end in a NUL
      have h_last : ¬(pair = [] ∨ pair.getLast? = some 0) := by
        rintro (h_empty | h_nul)
        · exact h_nil h_empty
        · exact h (List.mem_of_getLast? h_nul)
      rw [withNul, if_neg h_last]
      exact List.append_nil _
  | cons b d ih =>
    rw [dataToTextArrayLoop]
    split
    case isTrue h_nul =>
      rw [textArrayToData_cons, ih List.not_mem_nil, h_nul, withNul_append_cons, List.nil_append]
    case isFalse h_char =>
      have h_pair : 0 ∉ pair ++ [b] := by
        rw [List.mem_append, List.mem_singleton, not_or]
        exact ⟨h, Ne.symm h_char⟩
      rw [ih h_pair, List.append_assoc]
      rfl

/-- **The two are inverse to each other**, up to the NUL at the end: strings
without a NUL come back, the empty ones too, and data come back with one at the
end. -/
theorem textArray_roundTrip :
    (∀ kvs : List Bytes, (∀ kv ∈ kvs, 0 ∉ kv) → ∃ p len,
      textArrayBuffer kvs = some (p, len) ∧ dataToTextArray (p.take len) = kvs) ∧
    ∀ d : Bytes, ∃ p len, textArrayBuffer (dataToTextArray d) = some (p, len) ∧
      p.take len = if d = [] ∨ d.getLast? = some 0 then d else d ++ [0] := by
  constructor
  · intro kvs h
    refine ⟨_, _, textArrayBuffer_eq kvs, ?_⟩
    rw [take_textArrayBuffer (textArrayBuffer_eq kvs)]
    exact dataToTextArray_textArrayToData h
  · intro d
    refine ⟨_, _, textArrayBuffer_eq _, ?_⟩
    rw [take_textArrayBuffer (textArrayBuffer_eq _)]
    exact textArrayToData_dataToTextArrayLoop List.not_mem_nil d

/-- Strings, one of them empty, between others. -/
theorem textArray_roundTrip_empty : ∃ p len,
    textArrayBuffer [ascii "SendTargets=All", [], ascii "a"] = some (p, len) ∧
      dataToTextArray (p.take len) = [ascii "SendTargets=All", [], ascii "a"] :=
  textArray_roundTrip.1 _ (by decide)

end IscsiTarget
