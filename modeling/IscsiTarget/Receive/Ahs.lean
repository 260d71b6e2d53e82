import IscsiTarget.Model.Sample
import IscsiTarget.Receive.Stages

/-!
# Additional header segments

An additional header segment is a length, a type and as many bytes as the length says
(`AhsSegment`). `set_ahs_segment` is to cut such segments apart. It hands the length to
`iscsi_pdu_ahs::set`, which expects the length of the whole segment there, so that no segment is
ever taken; and it never moves on, so that a length of zero keeps it busy for good.
`ahs_iff` says what that leaves.
-/

namespace IscsiTarget

/-! ### Segments on the wire -/

/-- An additional header segment that is not empty. -/
structure AhsSegment where
  type : UInt8
  payload : Bytes
  payload_pos : 1 ≤ payload.length
  payload_lt : payload.length < 2 ^ 16

namespace AhsSegment

variable (s : AhsSegment)

/-- The segment as it is sent. -/
def bytes : Bytes := be16 s.payload.length ++ s.type :: s.payload

theorem length_bytes : s.bytes.length = s.payload.length + 3 := by simp [bytes, be16]

/-- The length field says how long the segment is. -/
theorem lengthField (rest : Bytes) :
    ((s.bytes ++ rest).getD 0 0).toNat * 256 + ((s.bytes ++ rest).getD 1 0).toNat =
      s.payload.length := by
  have h_lt := s.payload_lt
  change (UInt8.ofNat (s.payload.length / 2 ^ 8)).toNat * 256 +
    (UInt8.ofNat (s.payload.length / 2 ^ 0)).toNat = _
  rw [UInt8.toNat_ofNat', UInt8.toNat_ofNat']
  omega

end AhsSegment

/-! ### What `set_ahs_segment` is for -/

/-- `set_ahs_segment` comes to an end. -/
def AhsEnds (q : Pdu) (ahsIn : Bytes) : Prop := ∃ fuel r, q.setAhsSegment fuel ahsIn = .ok r

/-- If the bytes are segments, exactly these are appended, and `get` gives them
back. Of bytes that are none nothing is said. -/
def AhsTaken (q : Pdu) (ahsIn : Bytes) : Prop :=
  ∀ segments : List AhsSegment, ahsIn = segments.flatMap AhsSegment.bytes →
    ∃ fuel q', q.setAhsSegment fuel ahsIn = .ok (true, q') ∧
      q'.ahsList = q.ahsList ++ segments.map AhsSegment.bytes ∧
      (segments.map AhsSegment.bytes).flatMap ahsGet = ahsIn

/-- The loop stays at the first segment. -/
def AhsLoops (ahsIn : Bytes) : Prop :=
  3 < ahsIn.length ∧ ahsIn.getD 0 0 = 0 ∧ ahsIn.getD 1 0 = 0

/-- The bytes are segments, at least one of them. -/
def AhsPresent (ahsIn : Bytes) : Prop :=
  ∃ (s : AhsSegment) (rest : List AhsSegment), ahsIn = s.bytes ++ rest.flatMap AhsSegment.bytes

variable {q : Pdu} {ahsIn : Bytes}

theorem ahsEnds_iff : AhsEnds q ahsIn ↔ ¬ AhsLoops ahsIn := by
  constructor
  · rintro ⟨fuel, r, h⟩ ⟨h_len, h₀, h₁⟩
    rw [Pdu.setAhsSegment, Reception.setAhsLoop_stuck h₀ h₁ h_len] at h
    cases h
  · intro h
    by_cases h_first : ahsIn.getD 0 0 = 0 ∧ ahsIn.getD 1 0 = 0
    · -- too short for a segment
      have h_short : ¬ 0 + 3 < ahsIn.length := by
        intro h_len
        exact h ⟨by omega, h_first⟩
      refine ⟨1, (0 == ahsIn.length, q), ?_⟩
      rw [Pdu.setAhsSegment, setAhsLoop, if_neg h_short]
      rfl
    · obtain ⟨r, h_r⟩ := Reception.setAhsLoop_ok h_first 0 q.ahsList
      refine ⟨1, (r.1, { q with ahsList := r.2 }), ?_⟩
      rw [Pdu.setAhsSegment, h_r]
      rfl

/-- No segment is ever taken: `set` is handed the length of its content, and
expects that of the whole segment. -/
theorem setAhsLoop_of_segment (s : AhsSegment) (rest : Bytes) (fuel : ℕ) (ahsList : List Bytes) :
    setAhsLoop (s.bytes ++ rest) (fuel + 1) 0 ahsList = .ok (false, ahsList) := by
  have h_len : (s.bytes ++ rest).length = s.payload.length + 3 + rest.length := by
    rw [List.length_append, s.length_bytes]
  have h_pos := s.payload_pos
  rw [setAhsLoop, if_pos (by omega)]
  dsimp only
  rw [Nat.zero_add, s.lengthField, if_neg (by omega), if_pos (by omega), List.drop_zero]
  have h_none : ahsSet (s.bytes ++ rest) s.payload.length = none := by
    unfold ahsSet
    rw [s.lengthField, if_pos (by omega : s.payload.length + 3 ≠ s.payload.length)]
    split <;> rfl
  rw [h_none]
  have h_false : (0 == (s.bytes ++ rest).length) = false := by
    rw [beq_eq_false_iff_ne]
    omega
  rw [h_false]

theorem ahsTaken_iff : AhsTaken q ahsIn ↔ ¬ AhsPresent ahsIn := by
  constructor
  · rintro h ⟨s, rest, rfl⟩
    obtain ⟨fuel, q', h_set, -⟩ := h (s :: rest) rfl
    cases fuel with
    | zero => cases h_set
    | succ fuel =>
      rw [Pdu.setAhsSegment, setAhsLoop_of_segment] at h_set
      cases h_set
  · rintro h segments rfl
    cases segments with
    | nil => exact ⟨1, q, rfl, (List.append_nil _).symm, rfl⟩
    | cons s rest => exact absurd ⟨s, rest, rfl⟩ h

/-- **Additional header segments** are parsed as they have to be exactly when
there are none, and the bytes do not start with two zeros either. No segment is
ever taken, whatever it is; and a length of zero, in front of a type of zero,
keeps `set_ahs_segment` busy for good. -/
theorem ahs_iff (q : Pdu) (ahsIn : Bytes) :
    AhsEnds q ahsIn ∧ AhsTaken q ahsIn ↔ ¬ AhsLoops ahsIn ∧ ¬ AhsPresent ahsIn :=
  and_congr ahsEnds_iff ahsTaken_iff

/-- Four zero bytes keep the loop busy, and a segment with one byte is refused. -/
theorem ahs_fails :
    ¬ AhsEnds (Sample.command 5 0 (Sample.cdb10 0 0 0 0) []) [0, 0, 0, 0] ∧
      ¬ AhsTaken (Sample.command 5 0 (Sample.cdb10 0 0 0 0) []) [0, 1, 2, 7] := by
  refine ⟨fun h => ?_, fun h => ?_⟩
  · exact ahsEnds_iff.mp h ⟨by decide, rfl, rfl⟩
  · exact ahsTaken_iff.mp h ⟨⟨2, [7], by decide, by decide⟩, [], rfl⟩

end IscsiTarget
