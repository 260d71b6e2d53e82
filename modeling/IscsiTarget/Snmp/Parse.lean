import IscsiTarget.Model.SnmpTrace
import IscsiTarget.Snmp.Tree

/-!
# The steps of the parser

What `process_BER` does on the way is put together from what the operations on blocks do, and
so is what can be said about it (`Visits`): no byte is fetched from outside a block, a nested
call gets a block at least two bytes shorter, the computation ends with a range error exactly
when bytes were missing, and it says `false` exactly when it came to a value outside the
varbinds that the code refuses. There is one rule for each way in which the source puts two
computations together. `visits_tracedBER` goes through the parser once with these rules, and
`tracedBER_result` says that the result is that of `process_BER`.

Which values are refused is read off the branches of the code (`SnmpValue.Refused`). It is not
the same as which values are malformed, and nothing here is said about the latter.

With that the parser is bounded: `parser_bounded`.
-/

namespace IscsiTarget

open Traced (emit fault after All bind_of_ok bind_of_error)

/-- A step that is in order: it stays inside the block, and a nested call loses
at least the two bytes of a header. -/
def ParserEvent.Ok : ParserEvent → Prop
  | .fetch size offset len => offset + len ≤ size
  | .call left size => size + 2 ≤ left
  | _ => True

/-- A property of events that those have which the operations on blocks leave. -/
class OfBlocks (P : ParserEvent → Prop) : Prop where
  fetch {size offset len : ℕ} : offset + len ≤ size → P (.fetch size offset len)
  short : P .short
  value (inVarbind : Bool) (val : SnmpValue) : P (.value inVarbind val)

instance : OfBlocks ParserEvent.Ok := ⟨fun h => h, trivial, fun _ _ => trivial⟩

/-! ### The values the code refuses -/

/-- The types `process_BER` has a branch for. -/
def berTypes : List UInt8 := [0x02, 0x04, 0x05, 0x06, 0x30, 0xa0, 0xa1, 0xa3]

/-- The values at which the parser returns `false`: in `process_BER` those of a
type that has no branch and the OIDs that `get_OID` refuses, in `process_PDU`
those of another type than the one that is expected. -/
def SnmpValue.Refused : SnmpValue → Prop
  | .element type octets => type ∉ berTypes ∨ type = 0x06 ∧ getOID octets = none
  | .field expected type => type ≠ expected

/-- A value outside the varbinds was refused. -/
def Refusal (events : List ParserEvent) : Prop :=
  ∃ val, .value false val ∈ events ∧ val.Refused

theorem not_refusal_nil : ¬Refusal [] := by
  rintro ⟨val, h_mem, -⟩
  exact absurd h_mem List.not_mem_nil

/-- What is refused in two parts is refused in one of them. -/
theorem refusal_append {xs ys : List ParserEvent} :
    Refusal (xs ++ ys) ↔ Refusal xs ∨ Refusal ys := by
  constructor
  · rintro ⟨val, h_mem, h_val⟩
    rcases List.mem_append.mp h_mem with h | h
    · exact .inl ⟨val, h, h_val⟩
    · exact .inr ⟨val, h, h_val⟩
  · rintro (⟨val, h_mem, h_val⟩ | ⟨val, h_mem, h_val⟩)
    · exact ⟨val, List.mem_append_left ys h_mem, h_val⟩
    · exact ⟨val, List.mem_append_right xs h_mem, h_val⟩

/-- A value is refused outside the varbinds only. -/
theorem refusal_value {v : Bool} {val : SnmpValue} :
    Refusal [.value v val] ↔ v = false ∧ val.Refused := by
  constructor
  · rintro ⟨val', h_mem, h_val⟩
    cases List.mem_singleton.mp h_mem
    exact ⟨rfl, h_val⟩
  · rintro ⟨rfl, h_val⟩
    exact ⟨val, List.mem_cons_self, h_val⟩

/-- An event that is no value refuses nothing. -/
theorem not_refusal_singleton {e : ParserEvent} (h : ∀ v val, e ≠ .value v val) :
    ¬Refusal [e] := by
  rintro ⟨val, h_mem, -⟩
  exact h false val (List.mem_singleton.mp h_mem).symm

/-! ### The rules -/

/-- What is known about a part of the parser that may refuse values: all its
events have the property `P`, `refused` are the results with which it refuses
something, and `v` says whether it works on a varbind. -/
structure Visits {α : Type} (P : ParserEvent → Prop) (v : Bool) (refused : α → Prop)
    (x : Parse α) : Prop where
  ok : All P x
  fault_eq : ∀ e, x.result = .error e → e = .rangeError
  short_iff : .short ∈ x.events ↔ x.result = .error .rangeError
  /-- In a varbind it refuses nothing outside the varbinds. -/
  below : v = true → ¬Refusal x.events
  /-- Outside, it says so when it refuses something there. -/
  refused_iff : v = false → ∀ a, x.result = .ok a → (refused a ↔ Refusal x.events)

/-- A part that refuses nothing. -/
abbrev Quiet {α : Type} (P : ParserEvent → Prop) (v : Bool) (x : Parse α) : Prop :=
  Visits P v (fun _ => False) x

section rules

variable {P : ParserEvent → Prop} {α β : Type} {v : Bool} {R : α → Prop} {S : β → Prop}

theorem Visits.pure {b : β} (h : ¬S b) : Visits P v S (pure b : Parse β) := by
  refine ⟨All.pure b, fun e h => (by cases h), ?_, fun _ => not_refusal_nil, fun _ a h_a => ?_⟩
  · exact iff_of_false List.not_mem_nil (fun h => by cases h)
  · cases h_a
    exact iff_of_false h not_refusal_nil

/-- An error has no result, so it does not matter which results say that
something was refused. -/
theorem Visits.of_error {events : List ParserEvent} {e : SnmpFault}
    (h : Visits P v R ⟨events, .error e⟩) : Visits P v S (⟨events, .error e⟩ : Parse β) := by
  refine ⟨h.ok, fun e' h_e => ?_, h.short_iff.trans ?_, h.below, fun _ a h_a => by cases h_a⟩
  · cases h_e
    exact h.fault_eq e rfl
  show Except.error e = .error .rangeError ↔ Except.error e = .error .rangeError
  rw [Except.error.injEq, Except.error.injEq]

/-- One computation after the other. When the first refuses something, the
second only passes that on. -/
theorem Visits.bind {x : Parse α} {f : α → Parse β} (h : Visits P v R x)
    (h_next : ∀ a, x.result = .ok a → ¬R a → Visits P v S (f a))
    (h_stop : ∀ a, R a → ∃ b, f a = Pure.pure b ∧ S b) : Visits P v S (x >>= f) := by
  cases h_x : x.result with
  | error e =>
    rw [bind_of_error h_x]
    -- an error ends both, and the second has no events
    refine Visits.of_error (R := R) ?_
    rw [← h_x]
    exact h
  | ok a =>
    -- the first has not run out of bytes, or it would not have a result
    have h_short : .short ∉ x.events := fun h_mem => by
      rw [h.short_iff, h_x] at h_mem
      cases h_mem
    rw [bind_of_ok h_x]
    by_cases h_a : R a
    · -- refused: the events are those of the first, and the result says so
      obtain ⟨b, h_b, h_S⟩ := h_stop a h_a
      rw [h_b]
      have h_events : (after x.events (Pure.pure b : Parse β)).events = x.events :=
        List.append_nil _
      refine ⟨fun e h_e => h.ok e (h_events ▸ h_e), fun e h_e => (by cases h_e), ?_, ?_, ?_⟩
      · rw [h_events]
        exact iff_of_false h_short (fun h => by cases h)
      · rw [h_events]
        exact h.below
      · intro hv c h_c
        cases h_c
        rw [h_events]
        exact iff_of_true h_S ((h.refused_iff hv a h_x).mp h_a)
    · -- nothing refused so far: the events of both, and the result of the second
      have h_f := h_next a h_x h_a
      have h_events : (after x.events (f a)).events = x.events ++ (f a).events := rfl
      refine ⟨All.after h.ok h_f.ok, h_f.fault_eq, ?_, ?_, ?_⟩
      · rw [h_events, List.mem_append, or_iff_right h_short]
        exact h_f.short_iff
      · intro hv
        rw [h_events, refusal_append, not_or]
        exact ⟨h.below hv, h_f.below hv⟩
      · intro hv c h_c
        have h_not := mt (h.refused_iff hv a h_x).mpr h_a
        rw [h_events, refusal_append, or_iff_right h_not]
        exact h_f.refused_iff hv c h_c

/-- After something that refuses nothing. -/
theorem Visits.after_quiet {x : Parse α} {f : α → Parse β} (h : Quiet P v x)
    (h_next : ∀ a, x.result = .ok a → Visits P v S (f a)) : Visits P v S (x >>= f) :=
  h.bind (fun a h_a _ => h_next a h_a) fun _ h_false => h_false.elim

theorem Visits.after {events : List ParserEvent} {a : α} {y : Parse β}
    (h : Quiet P v (⟨events, .ok a⟩ : Parse α)) (h_y : Visits P v S y) :
    Visits P v S (after events y) :=
  Visits.after_quiet (f := fun _ => y) h fun _ _ => h_y

/-- A part that has not refused anything. -/
theorem Visits.quiet {events : List ParserEvent} {a : α} (h : Visits P v R ⟨events, .ok a⟩)
    (h_a : ¬R a) : Quiet P v (⟨events, .ok a⟩ : Parse α) :=
  ⟨h.ok, h.fault_eq, h.short_iff, h.below, fun hv _ _ =>
    iff_of_false (fun h => h) (mt (h.refused_iff hv a rfl).mpr h_a)⟩

/-- A part that has, in front of a result that says so. -/
theorem Visits.stop {events : List ParserEvent} {a : α} {b : β} (h : Visits P v R ⟨events, .ok a⟩)
    (h_a : R a) (h_b : S b) : Visits P v S (Traced.after events (Pure.pure b : Parse β)) :=
  Visits.bind (f := fun _ => Pure.pure b) h
    (fun _ h_c h_not => absurd (Except.ok.inj h_c ▸ h_a) h_not) fun _ _ => ⟨b, rfl, h_b⟩

/-- After the call for a varbind, the result of which is not looked at. -/
theorem Visits.ignore {x : Parse α} {f : α → Parse β} (h : Visits P true R x)
    (h_next : ∀ a, Visits P v S (f a)) : Visits P v S (x >>= f) := by
  -- the varbind may have been refused, which is no refusal outside the varbinds
  have h_quiet : Quiet P v x :=
    ⟨h.ok, h.fault_eq, h.short_iff, fun _ => h.below rfl, fun _ a _ =>
      iff_of_false (fun h => h) (h.below rfl)⟩
  exact Visits.after_quiet h_quiet fun a _ => h_next a

/-- The parser is at a value. When the code refuses it, what follows has nothing
else to refuse and says so in the end. -/
theorem Visits.value [OfBlocks P] {val : SnmpValue} {y : Parse β}
    (h_next : ¬val.Refused → Visits P v S y)
    (h_stop : val.Refused → Quiet P v y ∧ ∀ b, y.result = .ok b → S b) :
    Visits P v S (Traced.after [.value v val] y) := by
  have h_ok : ∀ e ∈ [.value v val], P e := fun e h_e => by
    rw [List.mem_singleton.mp h_e]
    exact OfBlocks.value v val
  -- the value itself is no end of a block
  have h_short : .short ∈ .value v val :: y.events ↔ .short ∈ y.events := by
    rw [List.mem_cons, or_iff_right (by simp)]
  by_cases h_val : val.Refused
  · obtain ⟨h_quiet, h_told⟩ := h_stop h_val
    refine ⟨All.after h_ok h_quiet.ok, h_quiet.fault_eq, h_short.trans h_quiet.short_iff, ?_, ?_⟩
    · -- inside a varbind the value does not count
      intro hv h_refusal
      rcases (@refusal_append [.value v val] _).mp h_refusal with h | h
      · exact absurd ((refusal_value.mp h).1.symm.trans hv) Bool.false_ne_true
      · exact h_quiet.below hv h
    · -- outside it is the refusal, and the result says so
      intro hv b h_b
      refine iff_of_true (h_told b h_b) ?_
      exact (@refusal_append [.value v val] _).mpr (.inl (refusal_value.mpr ⟨hv, h_val⟩))
  · -- not refused, so what counts is what follows
    have h_y := h_next h_val
    have h_refusal : Refusal (.value v val :: y.events) ↔ Refusal y.events := by
      refine (@refusal_append [.value v val] _).trans (or_iff_right ?_)
      exact fun h => h_val (refusal_value.mp h).2
    exact ⟨All.after h_ok h_y.ok, h_y.fault_eq, h_short.trans h_y.short_iff,
      fun hv => mt h_refusal.mp (h_y.below hv),
      fun hv b h_b => (h_y.refused_iff hv b h_b).trans h_refusal.symm⟩

/-- A value that decides at once: refused, it is answered with one result. -/
theorem Visits.value_pure [OfBlocks P] {val : SnmpValue} {y : Parse β}
    (h_next : ¬val.Refused → Visits P v S y)
    (h_stop : val.Refused → ∃ b, y = Pure.pure b ∧ S b) :
    Visits P v S (Traced.after [.value v val] y) := by
  refine Visits.value h_next fun h_val => ?_
  obtain ⟨b, rfl, h_b⟩ := h_stop h_val
  refine ⟨Visits.pure fun h => h, fun c h_c => ?_⟩
  cases h_c
  exact h_b

/-- One event that is no value, and is none of an error. -/
theorem Quiet.event {e : ParserEvent} (h : P e) (h_value : ∀ v val, e ≠ .value v val)
    (h_short : e ≠ .short) (a : α) : Quiet P v (⟨[e], .ok a⟩ : Parse α) := by
  refine ⟨fun e' h_e => ?_, fun e' h => (by cases h), ?_, fun _ => not_refusal_singleton h_value,
    fun _ a _ => iff_of_false (fun h => h) (not_refusal_singleton h_value)⟩
  · rw [List.mem_singleton.mp h_e]
    exact h
  · refine iff_of_false (fun h_mem => ?_) (fun h => by cases h)
    exact h_short (List.mem_singleton.mp h_mem).symm

/-- A call is made. -/
theorem Quiet.call {left size : ℕ} (h : size + 2 ≤ left) :
    Quiet ParserEvent.Ok v (emit (.call left size) : Parse Unit) :=
  Quiet.event h (fun _ _ h => by cases h) (fun h => by cases h) ()

theorem Quiet.requestId (octets : Bytes) :
    Quiet ParserEvent.Ok v (emit (.requestId octets) : Parse Unit) :=
  Quiet.event trivial (fun _ _ h => by cases h) (fun h => by cases h) ()

theorem Quiet.fetch [OfBlocks P] {size offset len : ℕ} (h : offset + len ≤ size) (a : α) :
    Quiet P v (⟨[.fetch size offset len], .ok a⟩ : Parse α) :=
  Quiet.event (OfBlocks.fetch h) (fun _ _ h => by cases h) (fun h => by cases h) a

theorem Quiet.throwRange [OfBlocks P] : Quiet P v (Block.throwRange : Parse α) := by
  have h_refusal : ¬Refusal [ParserEvent.short] :=
    not_refusal_singleton fun _ _ h => by cases h
  refine ⟨fun e h_e => ?_, fun e h => (Except.error.inj h).symm, ?_, fun _ => h_refusal,
    fun _ a h_a => by cases h_a⟩
  · rw [List.mem_singleton.mp h_e]
    exact OfBlocks.short
  · exact iff_of_true List.mem_cons_self rfl

end rules

/-! ### Blocks -/

namespace Block

variable {P : ParserEvent → Prop} [OfBlocks P] {v : Bool}

theorem quiet_getByte (b : Block) : Quiet P v b.getByte := by
  unfold getByte
  split
  · exact Quiet.throwRange
  · next h => exact Quiet.fetch (lt_of_le_of_ne b.offset_le h) _

theorem quiet_getBytes (len : ℕ) (b : Block) : Quiet P v (b.getBytes len) := by
  unfold getBytes
  split
  · exact Quiet.throwRange
  · next h => exact Quiet.fetch (not_lt.mp h) _

theorem quiet_skipBytes (len : ℕ) (b : Block) : Quiet P v (b.skipBytes len) := by
  unfold skipBytes
  split
  · exact Quiet.throwRange
  · exact Visits.pure fun h => h

theorem quiet_getTypeLength (b : Block) : Quiet P v b.getTypeLength :=
  b.quiet_getByte.after_quiet fun ⟨_, b₁⟩ _ =>
    b₁.quiet_getByte.after_quiet fun _ _ => Visits.pure fun h => h

theorem quiet_getElement (b : Block) : Quiet P v b.getElement :=
  b.quiet_getTypeLength.after_quiet fun ⟨⟨_, length⟩, b₁⟩ _ =>
    (b₁.quiet_getBytes length.toNat).after_quiet fun _ _ => Visits.pure fun h => h

theorem getBytes_size {len : ℕ} {b temp rest : Block}
    (h : (b.getBytes len).result = .ok (temp, rest)) :
    temp.data.length = len ∧ temp.left = temp.data := by
  unfold getBytes at h
  split at h
  · cases h
  · next h_le =>
    cases h
    refine ⟨?_, left_ofBytes _⟩
    show ((b.data.drop b.offset).take len).length = len
    rw [List.length_take, List.length_drop]
    omega

/-- The block of an element has the size the length byte says, and two bytes in
front of it. So a nested block is shorter, and the recursion ends. -/
theorem getElement_size {b temp rest : Block} {type length : UInt8} {events : List ParserEvent}
    (h : b.getElement = ⟨events, .ok ((type, length, temp), rest)⟩) :
    temp.data.length = length.toNat ∧ temp.data.length + 2 ≤ b.getBytesLeft := by
  have h_len := (getElement_ok h).2
  have h_result : b.getElement.result = .ok ((type, length, temp), rest) := by rw [h]
  -- `get_type_length` first, and then as many bytes as it says
  obtain ⟨⟨⟨type', length'⟩, b₁⟩, -, h_rest⟩ := Traced.result_bind_eq_ok h_result
  obtain ⟨⟨temp', b₂⟩, h_bytes, h_pure⟩ := Traced.result_bind_eq_ok h_rest
  cases h_pure
  obtain ⟨h_size, h_left⟩ := getBytes_size h_bytes
  have h_b := b.length_left
  rw [h_left] at h_len
  refine ⟨h_size, ?_⟩
  rw [getBytesLeft]
  omega

/-- The block of an element is read from its start. -/
theorem getElement_left {b temp rest : Block} {type length : UInt8} {events : List ParserEvent}
    (h : b.getElement = ⟨events, .ok ((type, length, temp), rest)⟩) : temp.left = temp.data := by
  have h_result : b.getElement.result = .ok ((type, length, temp), rest) := by rw [h]
  obtain ⟨⟨⟨type', length'⟩, b₁⟩, -, h_rest⟩ := Traced.result_bind_eq_ok h_result
  obtain ⟨⟨temp', b₂⟩, h_bytes, h_pure⟩ := Traced.result_bind_eq_ok h_rest
  cases h_pure
  exact (getBytes_size h_bytes).2

/-- Reading a block byte by byte refuses nothing, and stays inside the block. By
induction on what is left of it. -/
theorem quiet_readAll (b : Block) : Quiet P v b.readAll := by
  rw [readAll]
  split
  · exact Visits.pure fun h => h
  · have h_byte := quiet_getByte (P := P) (v := v) b
    split
    · next events e h =>
      rw [h] at h_byte
      exact h_byte.of_error
    · next events octet rest h =>
      have h_result := getByte_result b
      rw [h] at h_result h_byte
      -- one byte less is left, which is what the recursion is on
      have h_len : rest.left.length + 1 = b.left.length := getByte_length h_result.symm
      exact Visits.after h_byte ((quiet_readAll rest).after_quiet fun _ _ => Visits.pure fun h => h)
termination_by b.left.length
decreasing_by omega

/-- `get_INTEGER` and `get_OID` see the bytes that were left. They go over the
whole of the block, so that there is no range error in them. -/
theorem readAll_result (b : Block) : b.readAll.result = .ok b.left := by
  rw [readAll]
  split
  · next h =>
    rw [(left_eq_nil_iff b).mpr h]
    rfl
  · next h_ne =>
    have h_result := getByte_result b
    split
    · next events e h =>
      -- there is a byte, so no error
      rw [h] at h_result
      obtain ⟨octet, rest, h_left⟩ :=
        List.exists_cons_of_ne_nil (mt (left_eq_nil_iff b).mp h_ne)
      rw [h_left] at h_result
      cases h_result
    · next events octet rest h =>
      rw [h] at h_result
      have h_len : rest.left.length + 1 = b.left.length := getByte_length h_result.symm
      have h_left : b.left = octet :: rest.left := by
        obtain ⟨octet', rest', h_left⟩ :=
          List.exists_cons_of_ne_nil (mt (left_eq_nil_iff b).mp h_ne)
        rw [h_left] at h_result
        cases h_result
        exact h_left
      have h_rest := readAll_result rest
      rw [Traced.result_after, bind_of_ok h_rest, h_left]
      rfl
termination_by b.left.length
decreasing_by omega

theorem visits_skipInteger (b : Block) :
    Visits P v (fun r => r = none) (b.skipInteger v) := by
  refine b.quiet_getTypeLength.after_quiet fun ⟨⟨type, length⟩, b₁⟩ _ => ?_
  refine Visits.value_pure (fun h_val => ?_) fun h_type => ?_
  · -- an integer, the bytes of which are skipped
    have h_type : ¬ type ≠ 0x02 := h_val
    dsimp only
    rw [if_neg h_type]
    exact (b₁.quiet_skipBytes length.toNat).after_quiet fun _ _ => Visits.pure (by simp)
  · -- any other type is refused here, without a look at its length
    exact ⟨none, if_pos h_type, rfl⟩

/-- From the error status to the varbinds: two integers are skipped, and a
sequence is taken. Each may be of another type, which is refused with no list. -/
theorem visits_varbindList (b : Block) :
    Visits P v (fun r => r = none) (b.varbindList v) := by
  refine b.visits_skipInteger.bind (fun r _ h_r => ?_) fun r h_r => ?_
  · -- the error status, and behind it the error index
    obtain ⟨b₁, rfl⟩ := Option.ne_none_iff_exists'.mp h_r
    refine b₁.visits_skipInteger.bind (fun r _ h_r => ?_) fun r h_r => ?_
    · -- both were there, so it comes to the sequence of the varbinds
      obtain ⟨b₂, rfl⟩ := Option.ne_none_iff_exists'.mp h_r
      refine b₂.quiet_getByte.after_quiet fun ⟨type, b₃⟩ _ => ?_
      refine Visits.value_pure (fun h_val => ?_) fun h_type => ?_
      · have h_type : ¬ type ≠ 0x30 := h_val
        dsimp only
        rw [if_neg h_type]
        exact b₃.quiet_getByte.after_quiet fun ⟨length, b₄⟩ _ =>
          (b₄.quiet_getBytes length.toNat).after_quiet fun _ _ => Visits.pure (by simp)
      · exact ⟨none, if_pos h_type, rfl⟩
    · subst h_r
      exact ⟨none, rfl, rfl⟩
  · subst h_r
    exact ⟨none, rfl, rfl⟩

end Block

/-! ### The parser -/

/-- A tree that is not empty has an answer for every OID. -/
theorem exists_pushOid {sd : SnmpData} (h_sd : sd.data ≠ []) (isGetnext : Bool) (oid : Bytes)
    (oidsReq : OidReq) : ∃ req, pushOid sd isGetnext oid oidsReq = .ok req := by
  obtain ⟨oidNext, h_next⟩ := Option.isSome_iff_exists.mp (isSome_findNextOid h_sd oid)
  unfold pushOid
  rw [h_next]
  dsimp only
  -- GETNEXT takes the OID behind, if there is one; GET the OID itself
  split
  · split
    · exact ⟨_, rfl⟩
    · exact ⟨_, rfl⟩
  · exact ⟨_, rfl⟩

/-- The first integer is the version, and it is taken whatever it is. -/
theorem quiet_takeVersion {P : ParserEvent → Prop} [OfBlocks P] {v : Bool} (first : Bool)
    (temp : Block) (oidsReq : OidReq) : Quiet P v (takeVersion first temp oidsReq) := by
  unfold takeVersion
  split
  · exact temp.quiet_readAll.after_quiet fun _ _ => Visits.pure fun h => h
  · exact Visits.pure fun h => h

/-- The bytes of the community string are those of its block. -/
theorem quiet_takeCommunity {P : ParserEvent → Prop} [OfBlocks P] {v : Bool} (first : Bool)
    {length : UInt8} {temp : Block}
    (h : length.toNat ≤ temp.data.length) (oidsReq : OidReq) :
    Quiet P v (takeCommunity first length temp oidsReq) := by
  unfold takeCommunity
  split
  · exact Visits.after_quiet (Quiet.fetch (by rwa [Nat.zero_add]) _) fun _ _ =>
      Visits.pure fun h => h
  · exact Visits.pure fun h => h

/-- The results with which the parser refuses a packet. -/
abbrev Refused (r : Bool × OidReq) : Prop := r.1 = false

/-- A nested call, a `false` of which is passed on. What it refuses, the caller
refuses as well. -/
theorem Visits.nested {v : Bool} {x : Parse (Bool × OidReq)} {f : OidReq → Parse (Bool × OidReq)}
    (h : Visits ParserEvent.Ok v Refused x)
    (h_next : ∀ oidsReq, Visits ParserEvent.Ok v Refused (f oidsReq)) :
    Visits ParserEvent.Ok v Refused (do
      let (ok, oidsReq) ← x
      if ok then f oidsReq else Pure.pure (false, oidsReq)) := by
  refine h.bind (fun ⟨ok, oidsReq⟩ _ h_ok => ?_) fun ⟨ok, oidsReq⟩ h_ok => ?_
  · rw [Refused, Bool.not_eq_false] at h_ok
    dsimp only at h_ok
    rw [h_ok]
    exact h_next oidsReq
  · dsimp only [Refused] at h_ok
    rw [h_ok]
    exact ⟨(false, oidsReq), rfl, rfl⟩

mutual

/-- **`process_BER` refuses exactly the values it should.** One case for each
type; a nested call is looked at by `Visits.nested`, and what follows it by the
recursion. -/
theorem visits_tracedBER {v : Bool} {sd : SnmpData} (h_sd : sd.data ≠ []) (isGetnext : Bool)
    (isTop : ℤ) (firstInteger firstOctetStr : Bool) (b : Block) (oidsReq : OidReq) :
    Visits ParserEvent.Ok v Refused
      (tracedBER sd isGetnext isTop firstInteger firstOctetStr v b oidsReq) := by
  -- recursion on the bytes that are left; the nested calls work on a part of them
  rw [tracedBER]
  split
  · exact Visits.pure (by simp)
  have h_element := b.quiet_getElement (P := ParserEvent.Ok) (v := v)
  split
  · next events e h =>
    rw [h] at h_element
    exact h_element.of_error
  next events type length temp rest h =>
  rw [h] at h_element
  obtain ⟨h_size, h_call⟩ := Block.getElement_size h
  have h_len := (Block.getElement_ok h).2
  refine Visits.after h_element ?_
  refine Visits.value (fun h_val => ?_) fun h_val => ?_
  rotate_left
  · -- a refused value: no branch for its type, or the OID one and `get_OID` says no
    rcases h_val with h_type | ⟨rfl, h_oid⟩
    · simp only [berTypes, List.mem_cons, List.not_mem_nil, or_false, not_or] at h_type
      obtain ⟨h₁, h₂, h₃, h₄, h₅, h_pdu⟩ := h_type
      rw [if_neg h₁, if_neg h₂, if_neg h₃, if_neg h₄, if_neg h₅, if_neg (by simpa using h_pdu)]
      exact ⟨Visits.pure fun h => h, fun r h_r => by cases h_r; rfl⟩
    · rw [if_neg (by decide), if_neg (by decide), if_neg (by decide), if_pos rfl]
      constructor
      · refine temp.quiet_readAll.after_quiet fun octets h_octets => ?_
        obtain rfl := Except.ok.inj (temp.readAll_result.symm.trans h_octets)
        rw [h_oid]
        exact Visits.pure fun h => h
      · intro r h_r
        rw [bind_of_ok temp.readAll_result, h_oid] at h_r
        cases h_r
        rfl
  split
  · -- integer
    exact (quiet_takeVersion _ temp oidsReq).after_quiet fun req _ =>
      visits_tracedBER h_sd isGetnext isTop false firstOctetStr rest req
  split
  · -- octet string
    exact (quiet_takeCommunity _ h_size.ge oidsReq).after_quiet fun req _ =>
      visits_tracedBER h_sd isGetnext isTop firstInteger false rest req
  split
  · -- null
    exact visits_tracedBER h_sd isGetnext isTop firstInteger firstOctetStr rest oidsReq
  split
  · -- object identifier
    refine temp.quiet_readAll.after_quiet fun octets h_octets => ?_
    obtain rfl := Except.ok.inj (temp.readAll_result.symm.trans h_octets)
    split
    · next h_oid => exact absurd (Or.inr ⟨‹type = 0x06›, h_oid⟩) h_val
    · next oidOut h_oid =>
      obtain ⟨req, h_push⟩ := exists_pushOid h_sd isGetnext oidOut oidsReq
      rw [h_push]
      exact visits_tracedBER h_sd isGetnext isTop firstInteger firstOctetStr rest req
  split
  · -- sequence
    exact (Quiet.call h_call).after_quiet fun _ _ =>
      (visits_tracedBER h_sd isGetnext (isTop - 1) true true temp oidsReq).nested fun req =>
        visits_tracedBER h_sd isGetnext isTop firstInteger firstOctetStr rest req
  split
  · -- PDU
    exact (Quiet.call h_call).after_quiet fun _ _ =>
      (visits_tracedPDU h_sd _ temp oidsReq).nested fun req =>
        visits_tracedBER h_sd isGetnext isTop firstInteger firstOctetStr rest req
  · -- there is no other type
    refine absurd (Or.inl ?_) h_val
    simp_all [berTypes]
termination_by b.left.length
decreasing_by all_goals omega

/-- **`process_PDU`** passes the refusals of its parts on, but for those of the
varbinds. The result of each of these is dropped. -/
theorem visits_tracedPDU {v : Bool} {sd : SnmpData} (h_sd : sd.data ≠ []) (isGetnext : Bool)
    (b : Block) (oidsReq : OidReq) :
    Visits ParserEvent.Ok v Refused (tracedPDU sd isGetnext v b oidsReq) := by
  -- the request id comes first, then the two numbers, then the list of varbinds
  rw [tracedPDU]
  have h_type := b.quiet_getTypeLength (P := ParserEvent.Ok) (v := v)
  have h_result := b.getTypeLength_result
  split
  · next events e h =>
    rw [h] at h_type
    exact h_type.of_error
  next events type length b₁ h =>
  rw [h] at h_type h_result
  -- each part leaves fewer bytes, which is what the recursion is on
  have h_len : b₁.left.length + 2 = b.left.length := getTypeLength_length h_result.symm
  refine Visits.after h_type ?_
  -- the request id has to be an integer
  refine Visits.value_pure (fun h_val => ?_) fun h_val => ⟨(false, oidsReq), if_pos h_val, rfl⟩
  have h_type : ¬ type ≠ 0x02 := h_val
  rw [if_neg h_type]
  have h_bytes := b₁.quiet_getBytes length.toNat (P := ParserEvent.Ok) (v := v)
  have h_result₁ := b₁.getBytes_result length.toNat
  split
  · next events₁ e h₁ =>
    rw [h₁] at h_bytes
    exact h_bytes.of_error
  next events₁ idBytes b₂ h₁ =>
  rw [h₁] at h_bytes h_result₁
  have h_len₁ : idBytes.left.length + b₂.left.length = b₁.left.length :=
    (getBytes_length h_result₁.symm).2
  refine Visits.after h_bytes (idBytes.quiet_readAll.after_quiet fun octets _ =>
    (Quiet.requestId octets).after_quiet fun _ _ => ?_)
  have h_list := b₂.visits_varbindList (P := ParserEvent.Ok) (v := v)
  have h_result₂ := b₂.varbindList_result v
  dsimp only
  split
  · next events₂ e h₂ =>
    rw [h₂] at h_list
    exact h_list.of_error
  · next events₂ h₂ =>
    rw [h₂] at h_list
    -- one of the two numbers or the sequence was refused
    exact h_list.stop rfl rfl
  · next events₂ temp h₂ =>
    rw [h₂] at h_list h_result₂
    have h_len₂ : temp.left.length < b₂.left.length := varbindList_length h_result₂.symm
    exact Visits.after (h_list.quiet (by simp)) (visits_tracedVarbinds h_sd isGetnext temp _)
termination_by b.left.length
decreasing_by all_goals omega

/-- **The loop over the varbinds** does not: it looks at the type of each, and
not at what comes of it. -/
theorem visits_tracedVarbinds {v : Bool} {sd : SnmpData} (h_sd : sd.data ≠ []) (isGetnext : Bool)
    (temp : Block) (oidsReq : OidReq) :
    Visits ParserEvent.Ok v Refused (tracedVarbinds sd isGetnext v temp oidsReq) := by
  -- what a varbind returns is dropped here, whether it was refused or not
  rw [tracedVarbinds]
  split
  · exact Visits.pure (by simp)
  have h_element := temp.quiet_getElement (P := ParserEvent.Ok) (v := v)
  split
  · next events e h =>
    rw [h] at h_element
    exact h_element.of_error
  next events seqType _ seqData rest h =>
  rw [h] at h_element
  obtain ⟨-, h_call⟩ := Block.getElement_size h
  have h_len := (Block.getElement_ok h).2
  refine Visits.after h_element ?_
  -- a varbind has to be a sequence, which is checked outside of it
  refine Visits.value_pure (fun h_val => ?_) fun h_val => ⟨(false, oidsReq), if_neg h_val, rfl⟩
  have h_type : seqType = 0x30 := not_not.mp h_val
  rw [if_pos h_type]
  have h_varbind := visits_tracedBER (v := true) h_sd isGetnext 0 true true seqData oidsReq
  exact (Quiet.call h_call).after_quiet fun _ _ => h_varbind.ignore fun ⟨_, req⟩ =>
    visits_tracedVarbinds h_sd isGetnext rest req
termination_by temp.left.length
decreasing_by all_goals omega

end

/-! ### The result -/

/-- What the first integer leaves in the request. -/
theorem takeVersion_result (first : Bool) (temp : Block) (oidsReq : OidReq) :
    (takeVersion first temp oidsReq).result =
      .ok (if first then { oidsReq with version := uint64ToInt (getInteger temp.left) }
        else oidsReq) := by
  unfold takeVersion
  split
  · rw [bind_of_ok temp.readAll_result]
    rfl
  · rfl

/-- And what the first octet string leaves. -/
theorem takeCommunity_result (first : Bool) {length : UInt8} {temp : Block}
    (h : temp.data.take length.toNat = temp.left) (oidsReq : OidReq) :
    (takeCommunity first length temp oidsReq).result =
      .ok (if first then { oidsReq with community := temp.left } else oidsReq) := by
  unfold takeCommunity
  split
  · rw [← h]
    rfl
  · rfl

/-- What comes of a nested call depends on its result only, and not on what it
has left in the trace. -/
theorem nested_result (x : Parse (Bool × OidReq)) {f : OidReq → Parse (Bool × OidReq)}
    {g : OidReq → Except SnmpFault (Bool × OidReq)}
    (h_f : ∀ oidsReq, (f oidsReq).result = g oidsReq) :
    (do
      let (ok, oidsReq) ← x
      if ok then f oidsReq else Pure.pure (false, oidsReq) : Parse (Bool × OidReq)).result =
      match x.result with
      | .error e => .error e
      | .ok (false, oidsReq) => .ok (false, oidsReq)
      | .ok (true, oidsReq) => g oidsReq := by
  cases h_x : x.result with
  | error e => rw [bind_of_error h_x]
  | ok r =>
    obtain ⟨ok, oidsReq⟩ := r
    rw [bind_of_ok h_x]
    cases ok with
    -- refused, so the rest of the block is not read
    | false => rfl
    | true => exact h_f oidsReq

mutual

/-- The result is that of `process_BER` on the bytes that are left of the block.
By induction over the recursion; the trace is written along and decides nothing. -/
theorem tracedBER_result (sd : SnmpData) (isGetnext : Bool) (isTop : ℤ)
    (firstInteger firstOctetStr inVarbind : Bool) (b : Block) (oidsReq : OidReq) :
    (tracedBER sd isGetnext isTop firstInteger firstOctetStr inVarbind b oidsReq).result =
      processBER sd isGetnext isTop firstInteger firstOctetStr b.left oidsReq := by
  -- both are taken apart side by side: first the element, which is the same on both sides, and then
  -- one type after the other
  generalize h_m : processBER sd isGetnext isTop firstInteger firstOctetStr b.left oidsReq = m
  rw [tracedBER]
  rw [processBER] at h_m
  by_cases h_empty : b.isEmpty
  · rw [if_pos ((Block.left_eq_nil_iff b).mpr h_empty)] at h_m
    rw [if_pos h_empty, ← h_m]
    rfl
  rw [if_neg (mt (Block.left_eq_nil_iff b).mp h_empty)] at h_m
  rw [if_neg h_empty]
  split
  · next events e h =>
    have h_element := Block.getElement_error h
    split at h_m
    · next e' h' =>
      rw [h_element] at h'
      cases h'
      exact h_m
    · next h' =>
      rw [h_element] at h'
      cases h'
  next events type length temp rest h =>
  obtain ⟨h_element, h_len⟩ := Block.getElement_ok h
  split at h_m
  · next e' h' =>
    rw [h_element] at h'
    cases h'
  next type' temp' rest' h' =>
  rw [h_element] at h'
  cases h'
  subst h_m
  rw [Traced.result_after, Traced.result_after]
  by_cases h₁ : type = 0x02
  · rw [if_pos h₁, if_pos h₁, bind_of_ok (takeVersion_result _ temp oidsReq), Traced.result_after,
      tracedBER_result]
    simp only [decide_eq_true_eq]
  rw [if_neg h₁, if_neg h₁]
  by_cases h₂ : type = 0x04
  · have h_data : temp.data.take length.toNat = temp.left := by
      rw [← (Block.getElement_size h).1, List.take_length, Block.getElement_left h]
    rw [if_pos h₂, if_pos h₂, bind_of_ok (takeCommunity_result _ h_data oidsReq),
      Traced.result_after, tracedBER_result]
    simp only [decide_eq_true_eq]
  rw [if_neg h₂, if_neg h₂]
  by_cases h₃ : type = 0x05
  · rw [if_pos h₃, if_pos h₃, tracedBER_result]
  rw [if_neg h₃, if_neg h₃]
  by_cases h₄ : type = 0x06
  · rw [if_pos h₄, if_pos h₄, bind_of_ok temp.readAll_result, Traced.result_after]
    cases getOID temp.left with
    | none => rfl
    | some oidOut =>
      dsimp only
      cases pushOid sd isGetnext oidOut oidsReq with
      | error e => rfl
      | ok req =>
        exact tracedBER_result sd isGetnext isTop firstInteger firstOctetStr inVarbind rest req
  rw [if_neg h₄, if_neg h₄]
  by_cases h₅ : type = 0x30
  · rw [if_pos h₅, if_pos h₅]
    rewrite [Traced.emit_bind, Traced.result_after, nested_result _ fun req =>
      tracedBER_result sd isGetnext isTop firstInteger firstOctetStr inVarbind rest req,
      tracedBER_result]
    rfl
  rw [if_neg h₅, if_neg h₅]
  by_cases h₆ : type = 0xa0 ∨ type = 0xa1 ∨ type = 0xa3
  · rw [if_pos h₆, if_pos h₆]
    rewrite [Traced.emit_bind, Traced.result_after, nested_result _ fun req =>
      tracedBER_result sd isGetnext isTop firstInteger firstOctetStr inVarbind rest req,
      tracedPDU_result]
    rfl
  rw [if_neg h₆, if_neg h₆]
  rfl
termination_by b.left.length
decreasing_by all_goals omega

/-- The result is that of `process_PDU`. The fields of the PDU are read one
after the other, and each may end the parsing. -/
theorem tracedPDU_result (sd : SnmpData) (isGetnext inVarbind : Bool) (b : Block)
    (oidsReq : OidReq) :
    (tracedPDU sd isGetnext inVarbind b oidsReq).result =
      processPDU sd isGetnext b.left oidsReq := by
  generalize h_m : processPDU sd isGetnext b.left oidsReq = m
  have h_type := b.getTypeLength_result
  rw [tracedPDU]
  rw [processPDU] at h_m
  split
  · next events e h =>
    rw [h] at h_type
    split at h_m
    · next e' h' =>
      rw [h'] at h_type
      cases h_type
      exact h_m
    · next h' =>
      rw [h'] at h_type
      cases h_type
  next events type length b₁ h =>
  rw [h] at h_type
  split at h_m
  · next e' h' =>
    rw [h'] at h_type
    cases h_type
  next type' length' left₁ h' =>
  rw [h'] at h_type
  cases h_type
  have h_len : b₁.left.length + 2 = b.left.length := getTypeLength_length h'
  rw [Traced.result_after, Traced.result_after]
  -- type and length are the same on both sides; next is the request id
  by_cases h₁ : type ≠ 0x02
  · rw [if_pos h₁] at h_m
    rw [if_pos h₁, ← h_m]
    rfl
  rw [if_neg h₁] at h_m
  rw [if_neg h₁]
  have h_bytes := b₁.getBytes_result length.toNat
  split
  · next events₁ e h =>
    rw [h] at h_bytes
    split at h_m
    · next e' h' =>
      rw [h'] at h_bytes
      cases h_bytes
      exact h_m
    · next h' =>
      rw [h'] at h_bytes
      cases h_bytes
  next events₁ idBytes b₂ h =>
  rw [h] at h_bytes
  split at h_m
  · next e' h' =>
    rw [h'] at h_bytes
    cases h_bytes
  next idBytes' left₂ h' =>
  rw [h'] at h_bytes
  cases h_bytes
  have h_len₁ : idBytes.left.length + b₂.left.length = b₁.left.length := (getBytes_length h').2
  rw [Traced.result_after, bind_of_ok idBytes.readAll_result, Traced.result_after,
    Traced.emit_bind, Traced.result_after]
  -- the request id has no bearing on the result, which is that of the list
  have h_list := b₂.varbindList_result inVarbind
  dsimp only at h_m ⊢
  -- the three results of `varbindList`, on both sides
  split at h_m
  · next e h' =>
    rw [h'] at h_list
    split
    · next events₂ e' h =>
      rw [h] at h_list
      cases h_list
      exact h_m
    · next events₂ h =>
      rw [h] at h_list
      cases h_list
    · next events₂ temp h =>
      rw [h] at h_list
      cases h_list
  · next h' =>
    rw [h'] at h_list
    split
    · next events₂ e' h =>
      rw [h] at h_list
      cases h_list
    · exact h_m
    · next events₂ temp h =>
      rw [h] at h_list
      cases h_list
  · next left₃ h' =>
    rw [h'] at h_list
    split
    · next events₂ e' h =>
      rw [h] at h_list
      cases h_list
    · next events₂ h =>
      rw [h] at h_list
      cases h_list
    · next events₂ temp h =>
      rw [h] at h_list
      cases h_list
      have h_len₂ : temp.left.length < b₂.left.length := varbindList_length h'
      rw [Traced.result_after, tracedVarbinds_result, h_m]
termination_by b.left.length
decreasing_by all_goals omega

/-- And that of the loop, which goes on as long as there are bytes in the list
of varbinds, whatever has become of the last one. -/
theorem tracedVarbinds_result (sd : SnmpData) (isGetnext inVarbind : Bool) (temp : Block)
    (oidsReq : OidReq) :
    (tracedVarbinds sd isGetnext inVarbind temp oidsReq).result =
      varbindLoop sd isGetnext temp.left oidsReq := by
  generalize h_m : varbindLoop sd isGetnext temp.left oidsReq = m
  rw [tracedVarbinds]
  rw [varbindLoop] at h_m
  by_cases h_empty : temp.isEmpty
  · rw [if_pos ((Block.left_eq_nil_iff temp).mpr h_empty)] at h_m
    rw [if_pos h_empty, ← h_m]
    rfl
  rw [if_neg (mt (Block.left_eq_nil_iff temp).mp h_empty)] at h_m
  rw [if_neg h_empty]
  split
  · next events e h =>
    have h_element := Block.getElement_error h
    split at h_m
    · next e' h' =>
      rw [h_element] at h'
      cases h'
      exact h_m
    · next h' =>
      rw [h_element] at h'
      cases h'
  next events seqType length seqData rest h =>
  obtain ⟨h_element, h_len⟩ := Block.getElement_ok h
  split at h_m
  · next e' h' =>
    rw [h_element] at h'
    cases h'
  next seqType' seqData' rest' h' =>
  rw [h_element] at h'
  cases h'
  subst h_m
  rw [Traced.result_after, Traced.result_after]
  -- the element is the same on both sides; the varbind is passed over, and the loop goes on
  by_cases h₁ : seqType = 0x30
  · rw [if_pos h₁, if_pos h₁, Traced.emit_bind, Traced.result_after, Traced.result_bind,
      tracedBER_result]
    cases processBER sd isGetnext 0 true true seqData.left oidsReq with
    | error e => rfl
    | ok r => exact tracedVarbinds_result sd isGetnext inVarbind rest r.2
  rw [if_neg h₁, if_neg h₁]
  rfl
termination_by temp.left.length
decreasing_by all_goals omega

end

/-! ### Totality -/

/-- The ways in which the reading of a packet ends. Only the first one leads to
a reply. -/
inductive ParserOutcome
  | accepted
  | rejected
  | rangeError
  deriving DecidableEq, Repr

/-- The outcome of a result. Following a null pointer is none. -/
def parserOutcome : Except SnmpFault (Bool × OidReq) → Option ParserOutcome
  | .ok (true, _) => some .accepted
  | .ok (false, _) => some .rejected
  | .error .rangeError => some .rangeError
  | .error .nullPointer => none

/-- On every block, with a tree that is not empty, `process_BER` ends in one of
the three ways; every byte it fetches lies inside the block it is working on,
and every nested call is for a block at least two bytes shorter than what was
left of the one above. -/
theorem parser_bounded {sd : SnmpData} (h_sd : sd.data ≠ []) (isGetnext : Bool) (isTop : ℤ)
    (block : Bytes) (oidsReq : OidReq) :
    let run := tracedBER sd isGetnext isTop true true false (.ofBytes block) oidsReq
    run.result = processBER sd isGetnext isTop true true block oidsReq ∧
      (∃! outcome, parserOutcome run.result = some outcome) ∧
      (∀ size offset len, .fetch size offset len ∈ run.events → offset + len ≤ size) ∧
      ∀ left size, .call left size ∈ run.events → size + 2 ≤ left := by
  intro run
  have h_run : Visits ParserEvent.Ok false Refused run :=
    visits_tracedBER h_sd isGetnext isTop true true (.ofBytes block) oidsReq
  refine ⟨tracedBER_result sd isGetnext isTop true true false (.ofBytes block) oidsReq, ?_,
    fun size offset len h => h_run.ok _ h, fun left size h => h_run.ok _ h⟩
  have h_outcome : ∃ outcome, parserOutcome run.result = some outcome := by
    cases h : run.result with
    | error e =>
      rw [h_run.fault_eq e h]
      exact ⟨.rangeError, rfl⟩
    | ok r =>
      obtain ⟨ok, req⟩ := r
      cases ok with
      | false => exact ⟨.rejected, rfl⟩
      | true => exact ⟨.accepted, rfl⟩
  obtain ⟨outcome, h⟩ := h_outcome
  exact ⟨outcome, h, fun outcome' h' => Option.some_inj.mp (h'.symm.trans h)⟩

/-- The tree of the server, and a sequence with a null in it. -/
theorem parser_bounded_null :
    ∃! outcome, parserOutcome (tracedBER (initSnmp ⟨ascii "Jan  1 2026", by decide⟩) false 2 true
      true false (.ofBytes [0x30, 2, 0x05, 0]) {}).result = some outcome :=
  (parser_bounded (fun h => absurd (congrArg List.isEmpty h) (by decide +kernel)) false 2
    [0x30, 2, 0x05, 0] {}).2.1

end IscsiTarget
