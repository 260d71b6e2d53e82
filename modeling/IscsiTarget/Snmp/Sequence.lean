import IscsiTarget.Model.Snmp
import IscsiTarget.Snmp.Payload

/-!
# Reading a sequence back

`process_BER` takes a byte for the type, a byte for the length and that many bytes, again and
again. What an element hands to its sequence (`encoding`) can be read that way when it has room
for a header, because its second byte is then its length (`exists_header`).

The loop of a sequence copies the longest prefix of its elements that passes its check
(`sequenceLoop_longest`). It checks for a total of less than 257 bytes, but keeps count in eight
bits, in which a total of exactly 256 is nothing. `AddsUp` says that it never comes to that, and
`selfConsistent_iff` that this is what a sequence, or a PDU, needs to be read back.
-/

namespace IscsiTarget

open Buffer
open SnmpElem (Fits size seqFits getPayload)

/-! ### What a payload looks like -/

/-- The bytes an element hands to the sequence it is in. -/
def SnmpElem.encoding (e : SnmpElem) : Bytes :=
  match e.getPayload with
  | some pl => pl.first.take pl.second.toNat
  | none => []

/-- A payload has all the bytes its size says, and its second byte is the size
without the header. -/
structure SnmpPayload.Sound (pl : SnmpPayload) : Prop where
  size_le : pl.second.toNat ≤ pl.first.length
  length_octet : pl.first[1]? = some (pl.second - 2)

theorem integerLoop_spec (v : UInt64) (plLen : ℕ) {out out' : Bytes}
    (h : integerLoop v plLen out = some out') :
    out'.length = out.length ∧ ∀ i < 2, out'[i]? = out[i]? := by
  unfold integerLoop at h
  generalize List.range plLen = is at h
  induction is generalizing out with
  | nil =>
    cases h
    exact ⟨rfl, fun i _ => rfl⟩
  | cons j is ih =>
    rw [List.foldlM_cons] at h
    obtain ⟨out₁, h_put, h_rest⟩ := Option.bind_eq_some_iff.mp h
    -- the bytes are put from index 2 on, so the header is left alone
    obtain ⟨h_len, h_get⟩ := ih h_rest
    refine ⟨h_len.trans (length_of_put h_put), fun i h_i => ?_⟩
    rw [h_get i h_i, getElem?_of_put_ne h_put (by omega)]

theorem integerPayload_sound {type : SnmpIntegerType} {v : UInt64} {len : UInt8}
    {pl : SnmpPayload} (h : integerPayload type v len = some pl) : pl.Sound := by
  obtain ⟨out, h_type, h⟩ := Option.bind_eq_some_iff.mp h
  obtain ⟨out₁, h_length, h⟩ := Option.bind_eq_some_iff.mp h
  obtain ⟨out₂, h_loop, h⟩ := Option.bind_eq_some_iff.mp h
  cases h
  -- type, length and content are put one after the other
  obtain ⟨h_len, h_get⟩ := integerLoop_spec v _ h_loop
  have h₁ := length_of_put h_type
  have h₂ := length_of_put h_length
  rw [newBuffer_length] at h₁
  refine ⟨?_, ?_⟩
  · show len.toNat ≤ out₂.length
    omega
  · show out₂[1]? = _
    rw [h_get 1 (by norm_num), getElem?_of_put h_length]

theorem octetStringPayload_sound {v : Bytes} {len : UInt8} {pl : SnmpPayload}
    (h : octetStringPayload v len = some pl) : pl.Sound := by
  obtain ⟨out, h_copy, h⟩ := Option.bind_eq_some_iff.mp h
  obtain ⟨out₁, h_type, h⟩ := Option.bind_eq_some_iff.mp h
  obtain ⟨out₂, h_length, h⟩ := Option.bind_eq_some_iff.mp h
  cases h
  -- no copy changes the length of the buffer, and the last one puts the length in
  have h₁ := length_of_blit h_copy
  have h₂ := length_of_put h_type
  have h₃ := length_of_put h_length
  rw [newBuffer_length] at h₁
  refine ⟨?_, getElem?_of_put h_length⟩
  show len.toNat ≤ out₂.length
  omega

theorem oidPayload_sound {v : Bytes} {len : UInt8} {pl : SnmpPayload}
    (h : oidPayload v len = some pl) : pl.Sound := by
  obtain ⟨out, h_type, h⟩ := Option.bind_eq_some_iff.mp h
  obtain ⟨out₁, h_length, h⟩ := Option.bind_eq_some_iff.mp h
  have h₁ := length_of_put h_type
  have h₂ := length_of_put h_length
  have h₃ := getElem?_of_put h_length
  rw [newBuffer_length] at h₁
  dsimp only at h
  split at h
  · -- there is content, which goes behind the header
    obtain ⟨out₂, h_copy, h⟩ := Option.bind_eq_some_iff.mp h
    cases h
    have h₄ := length_of_blit h_copy
    refine ⟨?_, ?_⟩
    · show len.toNat ≤ out₂.length
      omega
    · show out₂[1]? = _
      rw [getElem?_of_blit h_copy (.inl (by norm_num)), h₃]
  · cases h
    refine ⟨?_, h₃⟩
    show len.toNat ≤ out₁.length
    omega

theorem sequenceLoop_length {elems : List SnmpElem} {out out' : Bytes} {o o' : UInt8}
    (h : sequenceLoop elems out o = some (out', o')) : out'.length = out.length := by
  induction elems generalizing out o with
  | nil =>
    rw [sequenceLoop] at h
    cases h
    rfl
  | cons e elems ih =>
    rw [sequenceLoop] at h
    obtain ⟨pl, -, h⟩ := Option.bind_eq_some_iff.mp h
    split at h
    · cases h
      rfl
    · -- an element is copied in, and the others behind it
      obtain ⟨out₁, h_copy, h⟩ := Option.bind_eq_some_iff.mp h
      rw [ih h, length_of_blit h_copy]

/-- The payload of a sequence, before a PDU puts its type in front. The buffer
has 258 bytes whatever is in it. -/
theorem sequencePayload_sound {elems : List SnmpElem} {pl : SnmpPayload}
    (h : (SnmpElem.sequence elems).getPayload = some pl) :
    pl.first.length = 258 ∧ pl.Sound := by
  rw [getPayload] at h
  obtain ⟨out, h_type, h⟩ := Option.bind_eq_some_iff.mp h
  obtain ⟨⟨out₁, o⟩, h_loop, h⟩ := Option.bind_eq_some_iff.mp h
  obtain ⟨out₂, h_length, h⟩ := Option.bind_eq_some_iff.mp h
  cases h
  have h₁ := length_of_put h_type
  have h₂ := sequenceLoop_length h_loop
  have h₃ := length_of_put h_length
  -- the length is a byte, so it stays below the 258 of the buffer
  have h_o := o.toNat_lt
  rw [newBuffer_length] at h₁
  refine ⟨by dsimp only; omega, ?_, getElem?_of_put h_length⟩
  show o.toNat ≤ out₂.length
  omega

/-- A PDU is a sequence with its type in front: the first byte is written over
when all the others are there. -/
theorem pdu_getPayload (type : UInt8) (elems : List SnmpElem) :
    (SnmpElem.pdu type elems).getPayload =
      (SnmpElem.sequence elems).getPayload.bind fun pl =>
        (put pl.first 0 type).map fun out => ⟨out, pl.second⟩ := by
  rw [getPayload, getPayload]
  generalize newBuffer 258 = buf
  simp only [Option.bind_eq_bind, Option.bind_assoc, Option.bind_some]
  congr 1
  funext out
  congr 1
  funext ⟨out₁, o⟩
  congr 1
  funext out₂
  cases put out₂ 0 type <;> rfl

theorem pduPayload_sound {type : UInt8} {elems : List SnmpElem} {pl : SnmpPayload}
    (h : (SnmpElem.pdu type elems).getPayload = some pl) : pl.Sound := by
  rw [pdu_getPayload] at h
  obtain ⟨pl₁, h_pl, h⟩ := Option.bind_eq_some_iff.mp h
  obtain ⟨out, h_type, rfl⟩ := Option.map_eq_some_iff.mp h
  obtain ⟨-, h_size, h_octet⟩ := sequencePayload_sound h_pl
  refine ⟨?_, ?_⟩
  · rw [length_of_put h_type]
    exact h_size
  · rw [getElem?_of_put_ne h_type (by norm_num)]
    exact h_octet

theorem getPayload_sound {e : SnmpElem} {pl : SnmpPayload} (h : e.getPayload = some pl) :
    pl.Sound := by
  -- one case for each class
  cases e with
  | integer type v len => exact integerPayload_sound (by rwa [getPayload] at h)
  | sequence elems => exact (sequencePayload_sound h).2
  | null =>
    have h_pl : pl = ⟨[0x05, 0x00], 2⟩ := (Option.some_inj.mp h).symm
    rw [h_pl]
    exact ⟨by decide, rfl⟩
  | octetString v len => exact octetStringPayload_sound (by rwa [getPayload] at h)
  | oid v len => exact oidPayload_sound (by rwa [getPayload] at h)
  | pdu type elems => exact pduPayload_sound h

/-- What a sequence gets from an element that fits. -/
theorem getPayload_of_fits {e : SnmpElem} (h : e.Fits) :
    ∃ pl, e.getPayload = some pl ∧ pl.Sound ∧ pl.second.toNat = e.size ∧
      e.encoding = pl.first.take pl.second.toNat := by
  obtain ⟨pl, h_pl, h_size⟩ := (getPayload_spec e).1 h
  refine ⟨pl, h_pl, getPayload_sound h_pl, h_size, ?_⟩
  rw [SnmpElem.encoding, h_pl]

theorem length_encoding {e : SnmpElem} (h : e.Fits) : e.encoding.length = e.size := by
  obtain ⟨pl, -, h_sound, h_size, h_encoding⟩ := getPayload_of_fits h
  rw [h_encoding, List.length_take, min_eq_left h_sound.size_le, h_size]

/-! ### Reading elements -/

/-- The elements `process_BER` finds in a block, one after the other: their
types and their contents. -/
def readElements (block : Bytes) : Except SnmpFault (List (UInt8 × Bytes)) :=
  if block = [] then .ok []
  else
    match _h : getElement block with
    | .error e => .error e
    | .ok (x, rest) => (readElements rest).map (x :: ·)
termination_by block.length
decreasing_by
  have := getElement_length _h
  omega

/-- The bytes an element with this type and this content is read from. -/
def elementBytes (x : UInt8 × Bytes) : Bytes := x.1 :: UInt8.ofNat x.2.length :: x.2

theorem getElement_elementBytes {x : UInt8 × Bytes} (h : x.2.length < 256) (rest : Bytes) :
    getElement (elementBytes x ++ rest) = .ok (x, rest) := by
  have h_length : (UInt8.ofNat x.2.length).toNat = x.2.length := UInt8.toNat_ofNat_of_lt' h
  show (getBytes (UInt8.ofNat x.2.length).toNat (x.2 ++ rest) >>=
    fun y => .ok ((x.1, y.1), y.2)) = _
  rw [h_length, getBytes, if_neg (by rw [List.length_append]; omega), List.take_left,
    List.drop_left]
  rfl

theorem readElements_elementBytes {xs : List (UInt8 × Bytes)} (h : ∀ x ∈ xs, x.2.length < 256) :
    readElements (xs.flatMap elementBytes) = .ok xs := by
  induction xs with
  | nil => rw [List.flatMap_nil, readElements, if_pos rfl]
  | cons x xs ih =>
    have h_ne : elementBytes x ++ xs.flatMap elementBytes ≠ [] := List.cons_ne_nil _ _
    rw [List.flatMap_cons, readElements, if_neg h_ne]
    split
    · next e h_element =>
      rw [getElement_elementBytes (h x List.mem_cons_self)] at h_element
      cases h_element
    · next y rest h_element =>
      rw [getElement_elementBytes (h x List.mem_cons_self)] at h_element
      cases h_element
      -- the first element is read as it was written, and the rest by the induction
      rw [ih fun z h_z => h z (List.mem_cons_of_mem x h_z)]
      rfl

/-- With room for a header, the encoding of an element is read as one: its
length octet is the number of octets behind it. -/
theorem exists_elementBytes {e : SnmpElem} (h : e.Fits) (h_two : 2 ≤ e.size) :
    ∃ x : UInt8 × Bytes, x.2.length < 256 ∧ elementBytes x = e.encoding := by
  obtain ⟨pl, -, h_sound, h_size, h_encoding⟩ := getPayload_of_fits h
  have h_lt := pl.second.toNat_lt
  have h_octet : e.encoding[1]? = some (pl.second - 2) := by
    rw [h_encoding, List.getElem?_take_of_lt (by omega), h_sound.length_octet]
  have h_length := length_encoding h
  -- an encoding of two bytes or more is a type, a length and a content
  match h_bytes : e.encoding with
  | [] => rw [h_bytes, List.length_nil] at h_length; omega
  | [b] => rw [h_bytes, List.length_singleton] at h_length; omega
  | type :: length :: content =>
    rw [h_bytes, List.length_cons, List.length_cons] at h_length
    rw [h_bytes] at h_octet
    have h_eq : length = pl.second - 2 := Option.some_inj.mp h_octet
    refine ⟨(type, content), by dsimp only; omega, ?_⟩
    have h_sub := toNat_sub_two (show 2 ≤ pl.second.toNat by omega)
    have h_content : UInt8.ofNat content.length = length := by
      apply UInt8.toNat.inj
      rw [UInt8.toNat_ofNat_of_lt' (by show content.length < 256; omega), h_eq]
      omega
    rw [elementBytes, h_content]

/-! ### The longest prefix that fits -/

/-- `fit` is the longest prefix of `elems` that passes the check of the loop
behind `o` bytes, with a total of less than 257 bytes. -/
structure LongestFitting (o : ℕ) (elems fit : List SnmpElem) : Prop where
  starts : fit <+: elems
  total_lt : o + (fit.flatMap SnmpElem.encoding).length < 257
  longest : ∀ more, more <+: elems → o + (more.flatMap SnmpElem.encoding).length < 257 →
    more <+: fit

theorem length_flatMap_encoding (e : SnmpElem) (elems : List SnmpElem) :
    ((e :: elems).flatMap SnmpElem.encoding).length =
      e.encoding.length + (elems.flatMap SnmpElem.encoding).length := by
  rw [List.flatMap_cons, List.length_append]

theorem LongestFitting.nil {o : ℕ} (h : o < 257) : LongestFitting o [] [] :=
  ⟨List.prefix_rfl, h, fun _ h_more _ => h_more⟩

/-- The first element does not fit. -/
theorem LongestFitting.stop {o : ℕ} {e : SnmpElem} {elems : List SnmpElem} (h : o < 257)
    (h_end : 257 ≤ o + e.encoding.length) : LongestFitting o (e :: elems) [] := by
  refine ⟨List.nil_prefix, h, fun more h_more h_total => ?_⟩
  cases more with
  | nil => exact List.prefix_rfl
  | cons e' more =>
    obtain ⟨rfl, -⟩ := List.cons_prefix_cons.mp h_more
    rw [length_flatMap_encoding] at h_total
    omega

/-- It does, and the prefix goes on behind it, with as much less room. -/
theorem LongestFitting.cons {o : ℕ} {e : SnmpElem} {elems fit : List SnmpElem}
    (h : LongestFitting (o + e.encoding.length) elems fit) :
    LongestFitting o (e :: elems) (e :: fit) := by
  refine ⟨List.cons_prefix_cons.mpr ⟨rfl, h.starts⟩, ?_, fun more h_more h_total => ?_⟩
  · have h_lt := h.total_lt
    rw [length_flatMap_encoding]
    omega
  · -- any other prefix that fits begins with this element too
    cases more with
    | nil => exact List.nil_prefix
    | cons e' more =>
      obtain ⟨rfl, h_rest⟩ := List.cons_prefix_cons.mp h_more
      rw [length_flatMap_encoding] at h_total
      exact List.cons_prefix_cons.mpr ⟨rfl, h.longest more h_rest (by omega)⟩

theorem LongestFitting.of_cons {o : ℕ} {e : SnmpElem} {elems fit : List SnmpElem}
    (h : LongestFitting o (e :: elems) fit) (h_e : o + e.encoding.length < 257) :
    ∃ fit', fit = e :: fit' ∧ LongestFitting (o + e.encoding.length) elems fit' := by
  -- the element fits by itself, so the longest prefix begins with it
  have h_head : [e] <+: fit := by
    refine h.longest [e] (List.cons_prefix_cons.mpr ⟨rfl, List.nil_prefix⟩) ?_
    rw [length_flatMap_encoding, List.flatMap_nil, List.length_nil]
    omega
  obtain ⟨fit', rfl⟩ := h_head
  have h_lt := h.total_lt
  rw [List.singleton_append, length_flatMap_encoding] at h_lt
  refine ⟨fit', rfl, (List.cons_prefix_cons.mp h.starts).2, by omega, fun more h_more h_total => ?_⟩
  refine (List.cons_prefix_cons.mp (h.longest (e :: more) ?_ ?_)).2
  · exact List.cons_prefix_cons.mpr ⟨rfl, h_more⟩
  · rw [length_flatMap_encoding]
    omega

/-! ### Totals -/

/-- Behind `o` bytes, all the elements the loop asks for their payload fit,
those it copies have a header, and the total is never 256. -/
def AddsUp : ℕ → List SnmpElem → Prop
  | _, [] => True
  | o, e :: elems =>
    e.Fits ∧ (o + e.size < 257 → 2 ≤ e.size ∧ o + e.size ≠ 256 ∧ AddsUp (o + e.size) elems)

/-- While the total adds up, the loop leaves the encodings of the longest prefix
behind what was there. -/
theorem sequenceLoop_longest {elems : List SnmpElem} {out : Bytes} {o : UInt8}
    (h_out : out.length = 258) (h : AddsUp o.toNat elems) :
    ∃ out' o' fit, sequenceLoop elems out o = some (out', o') ∧
      LongestFitting o.toNat elems fit ∧
      out'.take o'.toNat = out.take o.toNat ++ fit.flatMap SnmpElem.encoding ∧
      o'.toNat = o.toNat + (fit.flatMap SnmpElem.encoding).length ∧
      ∀ e ∈ fit, e.Fits ∧ 2 ≤ e.size := by
  induction elems generalizing out o with
  | nil =>
    have h_o := o.toNat_lt
    refine ⟨out, o, [], rfl, .nil (by omega), ?_, rfl, fun e h_e => by cases h_e⟩
    rw [List.flatMap_nil, List.append_nil]
  | cons e elems ih =>
    have h_o := o.toNat_lt
    obtain ⟨h_fits, h_next⟩ := h
    obtain ⟨pl, h_pl, h_sound, h_size, h_encoding⟩ := getPayload_of_fits h_fits
    have h_length := length_encoding h_fits
    rw [sequenceLoop, h_pl]
    dsimp only [Option.bind_eq_bind, Option.bind_some]
    by_cases h_end : o.toNat + pl.second.toNat ≥ 257
    · -- too long: the loop stops in front of this element
      rw [if_pos h_end]
      refine ⟨out, o, [], rfl, .stop (by omega) (by omega), ?_, rfl, fun e h_e => by cases h_e⟩
      rw [List.flatMap_nil, List.append_nil]
    · rw [if_neg h_end]
      obtain ⟨h_two, h_ne, h_rest⟩ := h_next (by omega)
      obtain ⟨out₁, h_copy, h_len⟩ :=
        exists_blit (show o.toNat + (pl.first.take pl.second.toNat).length ≤ out.length by
          rw [← h_encoding]; omega)
      have h_take := take_of_blit h_copy
      -- not 256, so the eight bits hold the new total
      have h_add : (o + pl.second).toNat = o.toNat + e.size := by
        rw [UInt8.toNat_add, h_size]
        omega
      rw [← h_encoding, h_length, ← h_add] at h_take
      rw [h_copy, Option.bind_some]
      rw [← h_add] at h_rest
      obtain ⟨out', o', fit, h_loop, h_longest, h_bytes, h_total, h_all⟩ :=
        ih (h_len.trans h_out) h_rest
      refine ⟨out', o', e :: fit, h_loop, .cons ?_, ?_, ?_, fun d h_d => ?_⟩
      · rwa [h_length, ← h_add]
      · rw [h_bytes, h_take, List.flatMap_cons, List.append_assoc]
      · rw [length_flatMap_encoding, h_total, h_length]
        omega
      · rcases List.mem_cons.mp h_d with rfl | h_d
        · exact ⟨h_fits, h_two⟩
        · exact h_all d h_d

/-- The other way: the longest prefix has a size in eight bits and is made of
elements with a header, so the total adds up. -/
theorem addsUp_of_longest {o : ℕ} {elems fit : List SnmpElem} (h_fits : seqFits o elems)
    (h_longest : LongestFitting o elems fit)
    (h_total : o + (fit.flatMap SnmpElem.encoding).length < 256)
    (h_two : ∀ e ∈ fit, 2 ≤ e.encoding.length) : AddsUp o elems := by
  induction elems generalizing o fit with
  | nil => exact trivial
  | cons e elems ih =>
    obtain ⟨h_e, h_rest⟩ := h_fits
    refine ⟨h_e, fun h_lt => ?_⟩
    have h_length := length_encoding h_e
    obtain ⟨fit', rfl, h_longest'⟩ := h_longest.of_cons (by omega)
    rw [length_flatMap_encoding, h_length] at h_total
    rw [h_length] at h_longest'
    -- below 256 the eight bits of the size lose nothing
    have h_mod : (o + e.size) % 256 = o + e.size := Nat.mod_eq_of_lt (by omega)
    have h_header := h_two e List.mem_cons_self
    refine ⟨by omega, by omega, ih ?_ h_longest' (by omega) fun d h_d =>
      h_two d (List.mem_cons_of_mem e h_d)⟩
    rw [← h_mod]
    exact h_rest h_lt

/-! ### Sequences and PDUs -/

/-- The payload `pl` can be read back: behind the type and a length octet that
is its size without the two, it has the encodings of `fit`, and these are the
elements a reader finds there. -/
structure SelfConsistent (type : UInt8) (elems fit : List SnmpElem) (pl : SnmpPayload) : Prop where
  longest : LongestFitting 2 elems fit
  bytes : ∃ length : UInt8,
    pl.first.take pl.second.toNat = type :: length :: fit.flatMap SnmpElem.encoding ∧
      pl.second.toNat = 2 + length.toNat ∧
      length.toNat = (fit.flatMap SnmpElem.encoding).length
  read : ∃ xs, readElements (fit.flatMap SnmpElem.encoding) = .ok xs ∧
    xs.map elementBytes = fit.map SnmpElem.encoding

/-- `get_payload` of the sequence or the PDU `e` with these elements gives a
payload that can be read back. -/
def ReadsBack (e : SnmpElem) (type : UInt8) (elems : List SnmpElem) : Prop :=
  ∃ pl fit, e.getPayload = some pl ∧ SelfConsistent type elems fit pl

/-- Elements that fit and have a header are read back from their encodings. By
induction on the elements, the first one being read off the front. -/
theorem readElements_encoding {fit : List SnmpElem} (h : ∀ e ∈ fit, e.Fits ∧ 2 ≤ e.size) :
    ∃ xs, readElements (fit.flatMap SnmpElem.encoding) = .ok xs ∧
      xs.map elementBytes = fit.map SnmpElem.encoding := by
  -- every encoding is a type, a length and as many bytes
  have h_exists : ∃ xs : List (UInt8 × Bytes), (∀ x ∈ xs, x.2.length < 256) ∧
      xs.map elementBytes = fit.map SnmpElem.encoding := by
    induction fit with
    | nil => exact ⟨[], fun x h_x => absurd h_x List.not_mem_nil, rfl⟩
    | cons e fit ih =>
      obtain ⟨xs, h_lt, h_xs⟩ := ih fun d h_d => h d (List.mem_cons_of_mem e h_d)
      obtain ⟨h_fits, h_two⟩ := h e List.mem_cons_self
      obtain ⟨x, h_x, h_bytes⟩ := exists_elementBytes h_fits h_two
      refine ⟨x :: xs, fun y h_y => ?_, by rw [List.map_cons, List.map_cons, h_bytes, h_xs]⟩
      rcases List.mem_cons.mp h_y with rfl | h_y
      · exact h_x
      · exact h_lt y h_y
  obtain ⟨xs, h_lt, h_xs⟩ := h_exists
  refine ⟨xs, ?_, h_xs⟩
  have h_flat : fit.flatMap SnmpElem.encoding = xs.flatMap elementBytes := by
    rw [List.flatMap_def, ← h_xs, ← List.flatMap_def]
  rw [h_flat, readElements_elementBytes h_lt]

/-- The payload of a sequence whose total adds up: the header, and the encodings
of its elements one after the other, as far as there is room. -/
theorem sequencePayload_of_addsUp {elems : List SnmpElem} (h : AddsUp 2 elems) :
    ∃ pl fit, (SnmpElem.sequence elems).getPayload = some pl ∧
      SelfConsistent 0x30 elems fit pl ∧ pl.first.length = 258 := by
  have h_new : 0 < (newBuffer 258).length := by rw [newBuffer_length]; norm_num
  have h_type := put_of_lt (0x30 : UInt8) h_new
  have h_out : ((newBuffer 258).set 0 0x30).length = 258 := by
    rw [List.length_set, newBuffer_length]
  obtain ⟨out, o, fit, h_loop, h_longest, h_bytes, h_total, h_all⟩ :=
    sequenceLoop_longest (o := 2) h_out h
  have h_two : (2 : UInt8).toNat = 2 := rfl
  rw [h_two] at h_longest h_bytes h_total
  have h_len := sequenceLoop_length h_loop
  have h_octet := put_of_lt (o - 2) (show 1 < out.length by omega)
  -- the length octet is the size without the header
  have h_sub := toNat_sub_two (show 2 ≤ o.toNat by omega)
  refine ⟨⟨out.set 1 (o - 2), o⟩, fit, ?_, ⟨h_longest, ⟨o - 2, ?_, ?_, ?_⟩,
    readElements_encoding h_all⟩, ?_⟩
  · rw [getPayload, h_type]
    simp only [Option.bind_eq_bind, Option.bind_some, h_loop, h_octet]
  · show (out.set 1 (o - 2)).take o.toNat = _
    rw [List.take_set, h_bytes]
    rfl
  · show o.toNat = _
    omega
  · omega
  · show (out.set 1 (o - 2)).length = 258
    rw [List.length_set, h_len, h_out]

/-- A PDU differs from it in the type, which takes no room of its own. -/
theorem pduPayload_of_addsUp (type : UInt8) {elems : List SnmpElem} (h : AddsUp 2 elems) :
    ∃ pl fit, (SnmpElem.pdu type elems).getPayload = some pl ∧
      SelfConsistent type elems fit pl := by
  obtain ⟨pl, fit, h_pl, ⟨h_longest, ⟨length, h_bytes, h_size, h_octet⟩, h_read⟩, h_len⟩ :=
    sequencePayload_of_addsUp h
  -- only the first byte is another
  have h_type := put_of_lt type (show 0 < pl.first.length by omega)
  refine ⟨⟨pl.first.set 0 type, pl.second⟩, fit, ?_,
    ⟨h_longest, ⟨length, ?_, h_size, h_octet⟩, h_read⟩⟩
  · rw [pdu_getPayload, h_pl, Option.bind_some, h_type, Option.map_some]
  · show (pl.first.set 0 type).take pl.second.toNat = _
    rw [List.take_set, h_bytes]
    rfl

/-- What can be read back adds up. -/
theorem addsUp_of_selfConsistent {type : UInt8} {elems fit : List SnmpElem} {pl : SnmpPayload}
    (h_fits : seqFits 2 elems) (h : SelfConsistent type elems fit pl) : AddsUp 2 elems := by
  obtain ⟨length, -, h_size, h_octet⟩ := h.bytes
  obtain ⟨xs, -, h_xs⟩ := h.read
  have h_second := pl.second.toNat_lt
  refine addsUp_of_longest h_fits h.longest (by omega) fun e h_e => ?_
  obtain ⟨x, -, h_x⟩ := List.mem_map.mp (h_xs ▸ List.mem_map_of_mem h_e)
  rw [← h_x, elementBytes, List.length_cons, List.length_cons]
  omega

/-- The payload of a sequence, or of a PDU, can be read back exactly when its
total adds up: the elements fit, those that are copied have a header, and the
total never comes to 256, which is nothing in the eight bits it is kept in. -/
theorem selfConsistent_iff (elems : List SnmpElem) :
    (ReadsBack (.sequence elems) 0x30 elems ↔ AddsUp 2 elems) ∧
      ∀ type, ReadsBack (.pdu type elems) type elems ↔ AddsUp 2 elems := by
  refine ⟨⟨?_, fun h => ?_⟩, fun type => ⟨?_, fun h => pduPayload_of_addsUp type h⟩⟩
  · -- what does not fit into its buffer has no payload, so it fits
    rintro ⟨pl, fit, h_pl, h⟩
    have h_fits : (SnmpElem.sequence elems).Fits := by
      by_contra h_not
      rw [(getPayload_spec _).2 h_not] at h_pl
      cases h_pl
    exact addsUp_of_selfConsistent h_fits h
  · obtain ⟨pl, fit, h_pl, h_consistent, -⟩ := sequencePayload_of_addsUp h
    exact ⟨pl, fit, h_pl, h_consistent⟩
  · rintro ⟨pl, fit, h_pl, h⟩
    have h_fits : (SnmpElem.pdu type elems).Fits := by
      by_contra h_not
      rw [(getPayload_spec _).2 h_not] at h_pl
      cases h_pl
    exact addsUp_of_selfConsistent h_fits h

/-- A string of 252 characters is an element of 254 bytes, with which a sequence
has 256. Its size comes out as 0, and its length octet as 254. -/
theorem selfConsistent_fails :
    (SnmpElem.sequence [snmpOctetString (List.replicate 252 65)]).getPayload.map
        (fun pl => (pl.second, pl.first.getD 1 0)) = some (0, 254) ∧
    ¬ReadsBack (.sequence [snmpOctetString (List.replicate 252 65)]) 0x30
      [snmpOctetString (List.replicate 252 65)] := by
  have h_size : (SnmpElem.sequence [snmpOctetString (List.replicate 252 65)]).getPayload.map
      (fun pl => (pl.second, pl.first.getD 1 0)) = some (0, 254) := by decide +kernel
  refine ⟨h_size, ?_⟩
  -- a size of 0 cannot be that of a sequence with a header
  rintro ⟨pl, fit, h_pl, h⟩
  obtain ⟨length, -, h_second, -⟩ := h.bytes
  rw [h_pl, Option.map_some, Option.some_inj, Prod.mk.injEq] at h_size
  rw [h_size.1] at h_second
  exact absurd h_second (by rw [show (0 : UInt8).toNat = 0 from rfl]; omega)

end IscsiTarget
