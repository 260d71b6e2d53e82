import IscsiTarget.Digest
import IscsiTarget.Model.Frame

/-!
# The layout of a frame

A frame is the header, its digest, the data padded with zeros, and the digest of the padded data
(`layout`). `get_helper` builds just that (`getHelper_eq`), whatever was in the memory it got: its
two writes to the data segment, of the padding and of the data, overlap so that no byte is left
out.
-/

namespace IscsiTarget

open Buffer Reception

/-! ### The layout -/

/-- The number of bytes of padding. -/
def paddingOf (n : ℕ) : ℕ := padded n - n

/-- A data segment with its padding. -/
def segment (data : Bytes) : Bytes := data ++ zeros (paddingOf data.length)

/-- The digest behind the header, or nothing. -/
def headerDigestBytes (headerDigest : Bool) (header : Header) : Bytes :=
  if headerDigest then nativeBytes (crc32c header.toList none).1 else []

/-- The digest behind the padded data, or nothing. -/
def dataDigestBytes (dataDigest : Bool) (data : Bytes) : Bytes :=
  if dataDigest then nativeBytes (crc32c (segment data) none).1 else []

/-- A frame, with a header digest or not, and with a data digest or not. -/
def layout (headerDigest dataDigest : Bool) (header : Header) (data : Bytes) : Bytes :=
  (header.toList ++ headerDigestBytes headerDigest header) ++
    if data = [] then [] else segment data ++ dataDigestBytes dataDigest data

theorem padded_eq (n : ℕ) : padded n = n + paddingOf n := by
  unfold paddingOf padded
  omega

theorem paddingOf_lt (n : ℕ) : paddingOf n < 4 := by
  unfold paddingOf padded
  omega

theorem length_zeros (n : ℕ) : (zeros n).length = n := List.length_replicate

@[simp] theorem length_newBytes (memory : ℕ → UInt8) (n : ℕ) : (newBytes memory n).length = n := by
  rw [newBytes, List.length_map, List.length_range]

@[simp] theorem length_segment (data : Bytes) : (segment data).length = padded data.length := by
  rw [segment, List.length_append, length_zeros, padded_eq]

@[simp] theorem length_nativeBytes (v : UInt32) : (nativeBytes v).length = 4 := rfl

@[simp] theorem Header.length_toList (h : Header) : h.toList.length = 48 := Vector.length_toList

/-- A list in two parts. -/
theorem exists_append {l : Bytes} {a b : ℕ} (h : l.length = a + b) :
    ∃ x y, l = x ++ y ∧ x.length = a ∧ y.length = b :=
  ⟨l.take a, l.drop a, (List.take_append_drop a l).symm, List.length_take_of_le (by omega),
    by rw [List.length_drop]; omega⟩

/-! ### `get_helper` -/

/-- The header digest, if there is one. -/
def headerDigestOf (headerDigest : Bool) (header : Header) : Option UInt32 :=
  if headerDigest then some (crc32c header.toList none).1 else none

theorem length_front (headerDigest : Bool) (header : Header) :
    (header.toList ++ headerDigestBytes headerDigest header).length =
      48 + if headerDigest then 4 else 0 := by
  rw [List.length_append, header.length_toList]
  cases headerDigest <;> rfl

/-- The header and its digest are written over the beginning of the buffer,
which has exactly that room in front of the data. -/
theorem blit_header {old tail : Bytes} (headerDigest : Bool) (header : Header)
    (h : old.length = 48 + if headerDigest then 4 else 0) :
    ((blit (old ++ tail) 0 header.toList).bind fun out =>
      putHeaderDigest out (headerDigestOf headerDigest header)) =
    some ((header.toList ++ headerDigestBytes headerDigest header) ++ tail) := by
  obtain ⟨x, y, rfl, h_x, h_y⟩ := exists_append h
  rw [List.append_assoc, blit_zero_append (header.length_toList.trans h_x.symm), Option.bind_some,
    List.append_assoc]
  cases headerDigest with
  | false =>
    have h_nil : y = [] := List.length_eq_zero_iff.mp h_y
    rw [h_nil]
    rfl
  | true =>
    have h_digest := @blit_append _ header.toList y tail
      (nativeBytes (crc32c header.toList none).1) (by rw [length_nativeBytes, h_y]; rfl)
    rw [header.length_toList] at h_digest
    exact h_digest

/-- The end of the padded data is set to zero, and then the data are written
over it. What is left of the zeros is the padding. -/
theorem blit_segment {front tail data : Bytes} {m : ℕ} (h_data : data ≠ [])
    (h : tail.length = padded data.length + m) :
    ∃ rest, rest.length = m ∧
      ((blit (front ++ tail) (front.length + padded data.length - 4) (zeros 4)).bind fun out =>
        blit out front.length data) = some (front ++ (segment data ++ rest)) := by
  have h_pos := List.length_pos_iff.mpr h_data
  have h_padded := padded_eq data.length
  have h_padding := paddingOf_lt data.length
  have h_four : 4 ≤ padded data.length := by
    unfold padded
    omega
  obtain ⟨x, y, rfl, h_x, h_y⟩ := exists_append (show tail.length =
    (padded data.length - 4) + (4 + m) by omega)
  obtain ⟨z, rest, rfl, h_z, h_rest⟩ := exists_append h_y
  -- the four bytes in front of the rest
  have h_zeros : blit (front ++ (x ++ (z ++ rest))) (front.length + padded data.length - 4)
      (zeros 4) = some (front ++ ((x ++ zeros 4) ++ rest)) := by
    have h_offset : front.length + padded data.length - 4 = (front ++ x).length := by
      rw [List.length_append, h_x]
      omega
    rw [h_offset, ← List.append_assoc, blit_append ((length_zeros 4).trans h_z.symm),
      List.append_assoc, List.append_assoc]
  -- the data cover all of them but the padding
  have h_behind : (x ++ zeros 4).drop data.length = zeros (paddingOf data.length) := by
    have h_left : 4 - (data.length - x.length) = paddingOf data.length := by omega
    rw [List.drop_append, List.drop_eq_nil_of_le (by omega), List.nil_append, zeros,
      List.drop_replicate, h_left]
    rfl
  have h_cut : x ++ zeros 4 =
      (x ++ zeros 4).take data.length ++ zeros (paddingOf data.length) := by
    rw [← h_behind, List.take_append_drop]
  have h_length : data.length = ((x ++ zeros 4).take data.length).length := by
    rw [List.length_take_of_le]
    rw [List.length_append, length_zeros]
    omega
  refine ⟨rest, h_rest, ?_⟩
  rw [h_zeros, Option.bind_some, h_cut, List.append_assoc, blit_append h_length, segment,
    List.append_assoc]

/-- The data segment is written behind the header: data, padding and, when it is
in force, the digest over both. There is nothing for empty data, not even a
digest. -/
theorem putData_eq {front tail data : Bytes} (dataDigest : Bool)
    (h : tail.length = padded data.length + if dataDigest ∧ data.length > 0 then 4 else 0) :
    putData (front ++ tail) (front.length + tail.length) front.length data dataDigest =
      some (front ++
        if data = [] then [] else segment data ++ dataDigestBytes dataDigest data) := by
  unfold putData
  by_cases h_data : data = []
  · subst h_data
    have h_nil : tail = [] := List.length_eq_zero_iff.mp (by rw [h, if_neg (by simp)]; rfl)
    rw [if_neg (show ¬([] : Bytes).length > 0 from Nat.lt_irrefl 0), if_pos rfl, h_nil]
  · have h_pos := List.length_pos_iff.mpr h_data
    rw [if_pos h_pos, if_neg h_data]
    cases dataDigest with
    | false =>
      rw [if_neg (fun h_both => Bool.false_ne_true h_both.1)] at h
      obtain ⟨rest, h_rest, h_write⟩ := @blit_segment front tail data 0 h_data h
      have h_end : front.length + tail.length - 4 = front.length + padded data.length - 4 := by
        rw [h, Nat.add_zero]
      rw [List.length_eq_zero_iff.mp h_rest] at h_write
      rw [if_neg Bool.false_ne_true, h_end]
      exact h_write
    | true =>
      rw [if_pos ⟨rfl, h_pos⟩] at h
      obtain ⟨rest, h_rest, h_write⟩ := blit_segment h_data h
      have h_end :
          front.length + tail.length - (4 + 4) = front.length + padded data.length - 4 := by
        omega
      have h_padded : ((front ++ (segment data ++ rest)).drop front.length).take
          (padded data.length) = segment data := by
        rw [List.drop_left, List.take_left' (length_segment data)]
      have h_digest := @blit_append _ (front ++ segment data) rest []
        (nativeBytes (crc32c (segment data) none).1) h_rest.symm
      rw [List.append_nil, List.append_nil, List.append_assoc, List.append_assoc,
        List.length_append, length_segment] at h_digest
      rw [if_pos rfl, h_end]
      change ((blit (front ++ tail) (front.length + padded data.length - 4) (zeros 4)).bind
        fun out => (blit out front.length data).bind fun out => _) = _
      rw [← Option.bind_assoc, h_write, Option.bind_some, h_padded]
      exact h_digest

/-- **`get_helper`** builds a frame, whatever was in the memory it got. Every
byte of the buffer is written, so that nothing of that memory is sent. -/
theorem getHelper_eq (ses : Session) (memory : ℕ → UInt8) (header : Header) (data : Bytes)
    (allowDigest : Bool) :
    getHelper ses memory header data allowDigest =
      some (layout (ses.getHeaderDigest && allowDigest) (ses.getDataDigest && allowDigest) header
        data) := by
  unfold getHelper layout
  generalize (ses.getHeaderDigest && allowDigest) = headerDigest
  generalize (ses.getDataDigest && allowDigest) = dataDigest
  have h_some : (headerDigestOf headerDigest header).isSome = headerDigest := by
    cases headerDigest <;> rfl
  change ((blit (newBytes memory (48 + (if (headerDigestOf headerDigest header).isSome = true then 4
      else 0) + padded data.length + if dataDigest = true ∧ data.length > 0 then 4 else 0)) 0
      header.toList).bind fun out =>
    (putHeaderDigest out (headerDigestOf headerDigest header)).bind fun out =>
      putData out (48 + (if (headerDigestOf headerDigest header).isSome = true then 4 else 0) +
        padded data.length + if dataDigest = true ∧ data.length > 0 then 4 else 0)
        (48 + if (headerDigestOf headerDigest header).isSome = true then 4 else 0) data
        dataDigest) = _
  rw [h_some, Nat.add_assoc _ (padded data.length), ← length_front headerDigest header]
  obtain ⟨old, tail, h_memory, h_old, h_tail⟩ := exists_append (length_newBytes memory
    ((header.toList ++ headerDigestBytes headerDigest header).length +
      (padded data.length + if dataDigest = true ∧ data.length > 0 then 4 else 0)))
  rw [h_memory, ← Option.bind_assoc,
    blit_header headerDigest header (h_old.trans (length_front _ _)), Option.bind_some, ← h_tail]
  exact putData_eq dataDigest h_tail

end IscsiTarget
