import IscsiTarget.Io

/-!
# The loop of UNMAP

The loop of `unmap` meets the block descriptors of the parameter list one after the other.
A descriptor that is `Refused` leaves sense data behind and the loop goes on; one that
`Trims` is executed, and the loop ends when that fails; an empty one is passed over.

`reached` is the list of the descriptors the loop meets, each with the state it is met in,
and `Unmaps` has one rule for each thing that can happen to a descriptor. The results of the
loop are read off it: there is sense data exactly when a descriptor was refused
(`Unmaps.senseData_iff`), and the result is good exactly when none was refused and none failed
(`Unmaps.good_iff`).
-/

namespace IscsiTarget

variable {β : Type}

/-- A block descriptor, and the state in which the loop meets it. -/
structure Meeting (β : Type) where
  scsi : Scsi β
  lba : UInt64
  n : UInt32

namespace Meeting

variable (T : Target β) (x : Meeting β)

/-- The descriptor is refused: `validate_request` objects to it, or it is too
long. -/
def Refused : Prop :=
  x.scsi.validateRequest T x.lba x.n none ≠ none ∨ x.n > T.build.maxUnmapBlocks

instance : Decidable (x.Refused T) := inferInstanceAs (Decidable (_ ∨ _))

/-- The descriptor is executed. -/
def Trims : Prop := ¬ x.Refused T ∧ 0 < x.n

instance : Decidable (x.Trims T) := inferInstanceAs (Decidable (_ ∧ _))

/-- The result of executing it. -/
def trimmed : RwResult × Scsi β := x.scsi.trim T x.lba x.n

end Meeting

namespace Scsi

variable (T : Target β)

/-- The descriptors the loop meets, each with the state in which it does. A
refused one does not end the loop, but a trim that fails does. -/
def reached : Scsi β → List (UInt64 × UInt32) → List (Meeting β)
  | _, [] => []
  | s, d :: ds =>
    let x : Meeting β := ⟨s, d.1, d.2⟩
    x :: (if x.Trims T then if (x.trimmed T).1 = .ok then reached (x.trimmed T).2 ds else []
      else reached s ds)

/-- The loop over descriptors instead of bytes. The two take the same course as
soon as the parameter list has been cut into descriptors. -/
def unmapList : UnmapState β → List (UInt64 × UInt32) → UnmapState β
  | u, [] => u
  | u, d :: ds =>
    if (unmapDescriptor T u d.1 d.2).2 then unmapList (unmapDescriptor T u d.1 d.2).1 ds
    else (unmapDescriptor T u d.1 d.2).1

variable {T}

/-! ### One descriptor -/

/-- A descriptor that is refused leaves sense data, and nothing else happens. -/
theorem unmapDescriptor_of_refused {u : UnmapState β} {lba : UInt64} {n : UInt32}
    (h : (⟨u.scsi, lba, n⟩ : Meeting β).Refused T) :
    ∃ sense, (sense = errorOutOfRange ∨ sense = errorInvalidField) ∧
      unmapDescriptor T u lba n = ({ u with rc := .failGeneral, senseData := sense }, true) := by
  unfold unmapDescriptor
  cases h_check : u.scsi.validateRequest T lba n none with
  | some sense => exact ⟨sense, validateRequest_sense T u.scsi h_check, rfl⟩
  | none =>
    have h_long : n > T.build.maxUnmapBlocks := h.resolve_left (fun h_ne => h_ne h_check)
    exact ⟨_, .inl rfl, if_pos h_long⟩

/-- A descriptor that is executed decides about the rest of the loop. -/
theorem unmapDescriptor_of_trims {u : UnmapState β} {lba : UInt64} {n : UInt32}
    (h : (⟨u.scsi, lba, n⟩ : Meeting β).Trims T) :
    unmapDescriptor T u lba n =
      ({ u with rc := (u.scsi.trim T lba n).1, scsi := (u.scsi.trim T lba n).2 },
        (u.scsi.trim T lba n).1 == .ok) := by
  obtain ⟨h_taken, h_pos⟩ := h
  unfold Meeting.Refused at h_taken
  push Not at h_taken
  unfold unmapDescriptor
  rw [h_taken.1]
  dsimp only
  rw [if_neg h_taken.2, if_pos h_pos]

/-- An empty descriptor is passed over. -/
theorem unmapDescriptor_of_empty {u : UnmapState β} {lba : UInt64} {n : UInt32}
    (h_taken : ¬ (⟨u.scsi, lba, n⟩ : Meeting β).Refused T)
    (h : ¬ (⟨u.scsi, lba, n⟩ : Meeting β).Trims T) :
    unmapDescriptor T u lba n = (u, true) := by
  have h_zero : ¬ 0 < n := fun h_pos => h ⟨h_taken, h_pos⟩
  unfold Meeting.Refused at h_taken
  push Not at h_taken
  unfold unmapDescriptor
  rw [h_taken.1]
  dsimp only
  rw [if_neg h_taken.2, if_neg h_zero]

/-! ### The bytes of the list -/

theorem unmapDescriptors_cons (d0 d1 d2 d3 d4 d5 d6 d7 n0 n1 n2 n3 : UInt8) (rest : Bytes) :
    unmapDescriptors
        (d0 :: d1 :: d2 :: d3 :: d4 :: d5 :: d6 :: d7 :: n0 :: n1 :: n2 :: n3 :: rest) =
      (getUint64 d0 d1 d2 d3 d4 d5 d6 d7, getUint32 n0 n1 n2 n3) ::
        unmapDescriptors (rest.drop 4) := by
  match rest with
  | [] | [_] | [_, _] | [_, _, _] | _ :: _ :: _ :: _ :: _ => rfl

theorem unmapDescriptors_of_short {bytes : Bytes} (h : bytes.length < 12) :
    unmapDescriptors bytes = [] := by
  unfold unmapDescriptors
  split
  · simp only [List.length_cons] at h
    omega
  · simp only [List.length_cons] at h
    omega
  · rfl

/-- **The loop over the bytes** is the loop over the descriptors, whenever it
does not read past the end of the list. -/
theorem unmapLoop_eq_ok {turns : ℕ} {u u' : UnmapState β} {bytes : Bytes}
    (h : unmapLoop T turns u bytes = .ok u') : u' = unmapList T u (unmapDescriptors bytes) := by
  induction turns generalizing u bytes with
  | zero =>
    cases bytes with
    | nil => exact (Except.ok.inj h).symm
    | cons b bytes => exact absurd h (by simp [unmapLoop])
  | succ turns ih =>
    -- a whole descriptor, or fewer bytes than the two numbers of one need
    match bytes with
    | [] => exact (Except.ok.inj h).symm
    | d0 :: d1 :: d2 :: d3 :: d4 :: d5 :: d6 :: d7 :: n0 :: n1 :: n2 :: n3 :: rest =>
      rw [unmapDescriptors_cons, unmapList]
      rw [unmapLoop] at h
      generalize unmapDescriptor T u (getUint64 d0 d1 d2 d3 d4 d5 d6 d7)
        (getUint32 n0 n1 n2 n3) = r at h ⊢
      obtain ⟨u₁, b⟩ := r
      cases b with
      | true => exact ih h
      | false => exact (Except.ok.inj h).symm
    | [_] | [_, _] | [_, _, _] | [_, _, _, _] | [_, _, _, _, _] | [_, _, _, _, _, _]
    | [_, _, _, _, _, _, _] | [_, _, _, _, _, _, _, _] | [_, _, _, _, _, _, _, _, _]
    | [_, _, _, _, _, _, _, _, _, _] | [_, _, _, _, _, _, _, _, _, _, _] =>
      exact absurd h (by simp [unmapLoop])

/-! ### Runs of the loop -/

variable (T) in
/-- The loop goes from one state to another over a list of descriptors, and
meets these. There is a case for each thing that can be done with a descriptor:
it is refused, trimmed, tried in vain, or empty. -/
inductive Unmaps : UnmapState β → List (UInt64 × UInt32) → List (Meeting β) → UnmapState β → Prop
  | done (u : UnmapState β) : Unmaps u [] [] u
  | refused {u u' : UnmapState β} {d : UInt64 × UInt32} {ds : List (UInt64 × UInt32)}
    {xs : List (Meeting β)} {sense : Bytes}
    (h : (⟨u.scsi, d.1, d.2⟩ : Meeting β).Refused T)
    (h_sense : sense = errorOutOfRange ∨ sense = errorInvalidField)
    (rest : Unmaps { u with rc := .failGeneral, senseData := sense } ds xs u') :
    Unmaps u (d :: ds) (⟨u.scsi, d.1, d.2⟩ :: xs) u'
  | trimmed {u u' : UnmapState β} {d : UInt64 × UInt32} {ds : List (UInt64 × UInt32)}
    {xs : List (Meeting β)} (h : (⟨u.scsi, d.1, d.2⟩ : Meeting β).Trims T)
    (h_ok : (u.scsi.trim T d.1 d.2).1 = .ok)
    (rest : Unmaps { u with rc := .ok, scsi := (u.scsi.trim T d.1 d.2).2 } ds xs u') :
    Unmaps u (d :: ds) (⟨u.scsi, d.1, d.2⟩ :: xs) u'
  /-- A trim that fails is the last thing that happens. -/
  | failed {u : UnmapState β} {d : UInt64 × UInt32} {ds : List (UInt64 × UInt32)}
    (h : (⟨u.scsi, d.1, d.2⟩ : Meeting β).Trims T)
    (h_fail : (u.scsi.trim T d.1 d.2).1 ≠ .ok) :
    Unmaps u (d :: ds) [⟨u.scsi, d.1, d.2⟩]
      { u with rc := (u.scsi.trim T d.1 d.2).1, scsi := (u.scsi.trim T d.1 d.2).2 }
  | empty {u u' : UnmapState β} {d : UInt64 × UInt32} {ds : List (UInt64 × UInt32)}
    {xs : List (Meeting β)} (h_taken : ¬ (⟨u.scsi, d.1, d.2⟩ : Meeting β).Refused T)
    (h : ¬ (⟨u.scsi, d.1, d.2⟩ : Meeting β).Trims T) (rest : Unmaps u ds xs u') :
    Unmaps u (d :: ds) (⟨u.scsi, d.1, d.2⟩ :: xs) u'

/-- **Every run of the loop** is one of these. By induction on the descriptors,
with a case for each thing that is done with one. -/
theorem unmaps_unmapList (u : UnmapState β) (ds : List (UInt64 × UInt32)) :
    Unmaps T u ds (reached T u.scsi ds) (unmapList T u ds) := by
  induction ds generalizing u with
  | nil => exact .done u
  | cons d ds ih =>
    rw [unmapList, reached]
    -- one case for each thing the loop can do with a descriptor
    by_cases h_refused : (⟨u.scsi, d.1, d.2⟩ : Meeting β).Refused T
    · obtain ⟨sense, h_sense, h_eq⟩ := unmapDescriptor_of_refused h_refused
      rw [h_eq, if_pos rfl, if_neg fun h => h.1 h_refused]
      exact .refused h_refused h_sense (ih { u with rc := .failGeneral, senseData := sense })
    by_cases h_trims : (⟨u.scsi, d.1, d.2⟩ : Meeting β).Trims T
    · rw [unmapDescriptor_of_trims h_trims, if_pos h_trims]
      by_cases h_ok : (u.scsi.trim T d.1 d.2).1 = .ok
      · have h_ok' : ((⟨u.scsi, d.1, d.2⟩ : Meeting β).trimmed T).1 = .ok := h_ok
        rw [if_pos h_ok', h_ok]
        exact .trimmed h_trims h_ok (ih { u with rc := .ok, scsi := (u.scsi.trim T d.1 d.2).2 })
      · have h_ok' : ¬ ((⟨u.scsi, d.1, d.2⟩ : Meeting β).trimmed T).1 = .ok := h_ok
        rw [if_neg h_ok', if_neg (by simpa using h_ok)]
        exact .failed h_trims h_ok
    · rw [unmapDescriptor_of_empty h_refused h_trims, if_pos rfl, if_neg h_trims]
      exact .empty h_refused h_trims (ih u)

variable {u u' : UnmapState β} {ds : List (UInt64 × UInt32)} {xs : List (Meeting β)}

theorem errorOutOfRange_ne_nil : errorOutOfRange ≠ [] := by simp [errorOutOfRange, fixedSense]

theorem errorInvalidField_ne_nil : errorInvalidField ≠ [] := by
  simp [errorInvalidField, fixedSense]

/-- **There is sense data** exactly when a descriptor was refused. By induction
over the run; nothing takes it away again. -/
theorem Unmaps.senseData_iff (h : Unmaps T u ds xs u') :
    u'.senseData ≠ [] ↔ u.senseData ≠ [] ∨ ∃ x ∈ xs, x.Refused T := by
  induction h with
  | done u => simp
  | @refused u u' d ds xs sense h h_sense rest ih =>
    rw [ih, List.exists_mem_cons_iff]
    refine iff_of_true (.inl ?_) (.inr (.inl h))
    rcases h_sense with rfl | rfl
    · exact errorOutOfRange_ne_nil
    · exact errorInvalidField_ne_nil
  | trimmed h h_ok rest ih =>
    rw [ih, List.exists_mem_cons_iff]
    simp [h.1]
  | failed h h_fail => simp [h.1]
  | empty h_taken h rest ih =>
    rw [ih, List.exists_mem_cons_iff]
    simp [h_taken]

/-- A failed trim is not the result of a run that has reported success. By
induction over the run, which ends with the first trim that fails. -/
theorem Unmaps.rc_eq_ok_iff (h : Unmaps T u ds xs u') (h_rc : u.rc = .ok)
    (h_sense : ∀ x ∈ xs, ¬ x.Refused T) :
    u'.rc = .ok ↔ ∀ x ∈ xs, x.Trims T → (x.trimmed T).1 = .ok := by
  induction h with
  | done u => simp [h_rc]
  | refused h h_sense' rest ih => exact absurd h (h_sense _ List.mem_cons_self)
  | @trimmed u u' d ds xs h h_ok rest ih =>
    rw [ih rfl fun x hx => h_sense x (List.mem_cons_of_mem _ hx), List.forall_mem_cons]
    exact (and_iff_right fun _ => h_ok).symm
  | @failed u d ds h h_fail =>
    rw [List.forall_mem_singleton]
    exact iff_of_false h_fail fun h_all => h_fail (h_all h)
  | @empty u u' d ds xs h_taken h rest ih =>
    rw [ih h_rc fun x hx => h_sense x (List.mem_cons_of_mem _ hx), List.forall_mem_cons]
    exact (and_iff_right fun h' => absurd h' h).symm

/-- **The result is good** exactly when no descriptor was refused and no trim
failed. The sense data of a refusal is kept, and the result of a failed trim is
the last one. -/
theorem Unmaps.good_iff (h : Unmaps T u ds xs u') (h_rc : u.rc = .ok) (h_sense : u.senseData = []) :
    u'.rc = .ok ∧ u'.senseData = [] ↔
      ∀ x ∈ xs, ¬ x.Refused T ∧ (x.Trims T → (x.trimmed T).1 = .ok) := by
  have h_iff := h.senseData_iff
  rw [h_sense] at h_iff
  constructor
  · -- a refused descriptor leaves sense data, so there is none, and the results say that all trims
    -- worked
    rintro ⟨h_ok, h_nil⟩
    have h_none : ∀ x ∈ xs, ¬ x.Refused T := by
      intro x hx h_ref
      exact h_iff.mpr (.inr ⟨x, hx, h_ref⟩) h_nil
    intro x hx
    exact ⟨h_none x hx, (h.rc_eq_ok_iff h_rc h_none).mp h_ok x hx⟩
  · intro h_all
    have h_none : ∀ x ∈ xs, ¬ x.Refused T := fun x hx => (h_all x hx).1
    refine ⟨(h.rc_eq_ok_iff h_rc h_none).mpr fun x hx => (h_all x hx).2, ?_⟩
    by_contra h_ne
    rcases h_iff.mp h_ne with h_nil | ⟨x, hx, h_ref⟩
    · exact h_nil rfl
    · exact h_none x hx h_ref

end Scsi

end IscsiTarget
