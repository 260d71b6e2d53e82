import IscsiTarget.Model.SdBackend
import IscsiTarget.Storage.Contract

/-!
# `cmpwrite` of the backends on SD cards

It compares a block and writes it before it looks at the next one. `SdInv` says what there
is at every step, with the blocks in front of the current one written already, and a mismatch
comes too late for them: `sd_allOrNothing_iff`.
-/

namespace IscsiTarget

open LockedSections

section Sd

/-- The call works: a seek succeeds, the others move a whole block. The number
tells the calls apart, and `none` is a failed one. -/
def SdNoError (rc : Option ℕ) : SdWork → Prop
  | .turn _ .read => rc = some sdBlockSize
  | .turn _ .write => rc = some sdBlockSize
  | .turn _ _ => rc ≠ none
  | .compared _ => True

/-- `cmpwrite` of a program of this kind on a file `f`. The classes for SD cards
have the same loop, and differ in the lock they hold in it. -/
def SdEnds (P : Program Unit SdSection SdWork SdFile (Option ℕ)) (blockNr : UInt64)
    (nBlocks : UInt32) (dataWrite dataCompare : Bytes) (f : SdFile) (clean : Prop)
    (result : CmpwriteResult) (m' : Medium UInt8) : Prop :=
  ∃ f', Alone P (.cmpwrite blockNr nBlocks dataWrite dataCompare)
    (fun rc w => clean → SdNoError rc w) (.turn 0 .seekRead) f (.compared result) f' ∧
      f'.contents = m'

/-- The first block that does not match. -/
def FirstMismatch (m : Medium UInt8) (off bs : ℕ) (dataCompare : Bytes) (j : ℕ) : Prop :=
  Matches m off bs dataCompare j ∧ ¬ MatchesAt m off bs dataCompare j

/-- The blocks in front of the first one that does not match are to be written
as they are. -/
def KeepsBlocks (m : Medium UInt8) (off bs n : ℕ) (dataWrite dataCompare : Bytes) : Prop :=
  ∀ j < n, FirstMismatch m off bs dataCompare j →
    dataWrite.take (j * bs) = dataCompare.take (j * bs)

variable {serial : Bool} {blockNr : UInt64} {nBlocks : UInt32} {dataWrite dataCompare : Bytes}
  {m : Medium UInt8}

theorem FirstMismatch.unique {off bs n j j' : ℕ} (h_compare : dataCompare.length = n * bs)
    (h : FirstMismatch m off bs dataCompare j) (h' : FirstMismatch m off bs dataCompare j')
    (hj : j < n) (hj' : j' < n) : j = j' := by
  -- everything in front of either of them matches
  have h_le : ∀ {k l : ℕ}, FirstMismatch m off bs dataCompare k →
      FirstMismatch m off bs dataCompare l → k < n → l < n → ¬ k < l := by
    intro k l hk hl hkn hln h_lt
    have h_len : (dataCompare.take (l * bs)).length = l * bs :=
      List.length_take_of_le (h_compare ▸ Nat.mul_le_mul_right _ hln.le)
    have h_succ : Matches m off bs dataCompare (k + 1) := by
      unfold Matches
      have h_l : m.slice off (l * bs) = dataCompare.take (l * bs) := hl.1
      have h_mul : (k + 1) * bs ≤ l * bs := Nat.mul_le_mul_right _ h_lt
      rw [← min_eq_left h_mul, ← Medium.take_slice, h_l, List.take_take]
    exact hk.2 ((matches_succ h_compare hkn).mp h_succ).2
  have h_lt := h_le h h' hj hj'
  have h_gt := h_le h' h hj' hj
  omega

/-- What holds while `cmpwrite` is at work, and when it is done. The blocks in
front of the current one have been compared and written already. -/
def SdInv (blockNr : UInt64) (nBlocks : UInt32) (dataWrite dataCompare : Bytes)
    (m : Medium UInt8) (clean : Prop) (w : SdWork) (f : SdFile) : Prop :=
  let off := blockNr.toNat * sdBlockSize
  match w with
  | .turn i stage =>
    i ≤ nBlocks.toNat ∧ Matches m off sdBlockSize dataCompare i ∧
      f.contents = m.store off (dataWrite.take (i * sdBlockSize)) ∧
      match stage with
      | .seekRead => True
      | .read => f.pos = off + i * sdBlockSize
      | .seekWrite => MatchesAt m off sdBlockSize dataCompare i
      | .write => f.pos = off + i * sdBlockSize ∧ MatchesAt m off sdBlockSize dataCompare i
  | .compared .ok =>
    Matches m off sdBlockSize dataCompare nBlocks.toNat ∧ f.contents = m.store off dataWrite
  | .compared .mismatch => ∃ j < nBlocks.toNat, FirstMismatch m off sdBlockSize dataCompare j ∧
      f.contents = m.store off (dataWrite.take (j * sdBlockSize))
  | .compared _ => ¬ clean

/-- What has been written so far does not reach block `i`. -/
theorem slice_behind {off i : ℕ} :
    (m.store off (dataWrite.take (i * sdBlockSize))).slice (off + i * sdBlockSize) sdBlockSize =
      m.slice (off + i * sdBlockSize) sdBlockSize := by
  refine Medium.slice_store_of_le ?_
  rw [List.length_take]
  exact Nat.add_le_add_left (min_le_left _ _) _

/-- Block `i` on top of the blocks in front of it. -/
theorem store_next {off i : ℕ} (hi : i * sdBlockSize ≤ dataWrite.length) :
    (m.store off (dataWrite.take (i * sdBlockSize))).store (off + i * sdBlockSize)
        ((dataWrite.drop (i * sdBlockSize)).take sdBlockSize) =
      m.store off (dataWrite.take ((i + 1) * sdBlockSize)) := by
  have h_len : (dataWrite.take (i * sdBlockSize)).length = i * sdBlockSize :=
    List.length_take_of_le hi
  rw [Nat.succ_mul, List.take_add, Medium.store_append, h_len]

/-- A call of `cmpwrite`. By cases on the stage: a block is read and compared,
and then written before the next one is looked at. -/
theorem sdInv_act {clean : Prop} {rc : Option ℕ} {w w' : SdWork} {f f' : SdFile}
    (h_range : (blockNr.toNat + nBlocks.toNat) * sdBlockSize < 2 ^ 64)
    (h_write : dataWrite.length = nBlocks.toNat * sdBlockSize)
    (h_compare : dataCompare.length = nBlocks.toNat * sdBlockSize)
    (h : SdInv blockNr nBlocks dataWrite dataCompare m clean w f)
    (h_rc : clean → SdNoError rc w)
    (h_act : sdAct rc (.cmpwrite blockNr nBlocks dataWrite dataCompare) w f = some (w', f')) :
    SdInv blockNr nBlocks dataWrite dataCompare m clean w' f' := by
  cases w with
  | compared result => exact nomatch h_act
  | turn i stage =>
    obtain ⟨h_i, h_matches, h_contents, h_stage⟩ := h
    by_cases h_turn : i < nBlocks.toNat
    swap
    · -- the end of the loop
      rw [sdAct, if_neg h_turn] at h_act
      obtain ⟨rfl, rfl⟩ := Prod.mk.inj (Option.some.inj h_act)
      obtain rfl : i = nBlocks.toNat := by omega
      rw [← h_write, List.take_length] at h_contents
      exact ⟨h_matches, h_contents⟩
    have h_off : sdOffset (blockNr + UInt64.ofNat i) =
        blockNr.toNat * sdBlockSize + i * sdBlockSize := toNat_offset h_range (by decide) h_i
    rw [sdAct, if_pos h_turn] at h_act
    -- a call that fails ends the command with an error, and the invariant then only says that there
    -- was one; a short read or write counts as a failure
    cases stage with
    | seekRead =>
      cases rc with
      | none =>
        obtain ⟨rfl, rfl⟩ := Prod.mk.inj (Option.some.inj h_act)
        exact fun h_clean => h_rc h_clean rfl
      | some k =>
        obtain ⟨rfl, rfl⟩ := Prod.mk.inj (Option.some.inj h_act)
        exact ⟨h_i, h_matches, h_contents, h_off⟩
    | read =>
      cases rc with
      | none =>
        obtain ⟨rfl, rfl⟩ := Prod.mk.inj (Option.some.inj h_act)
        exact fun h_clean => absurd (h_rc h_clean) (by simp [SdNoError])
      | some k =>
        have h_pos : f.pos = _ := h_stage
        -- block `i` is still as it was, since only blocks in front of it have been written
        have h_read : f.contents.slice f.pos sdBlockSize =
            m.slice (blockNr.toNat * sdBlockSize + i * sdBlockSize) sdBlockSize := by
          rw [h_pos, h_contents, slice_behind]
        dsimp only at h_act
        rw [h_read] at h_act
        split at h_act
        · split at h_act
          · next h_short =>
            obtain ⟨rfl, rfl⟩ := Prod.mk.inj (Option.some.inj h_act)
            exact fun h_clean => h_short (Option.some.inj (h_rc h_clean))
          · split at h_act
            · next h_at =>
              obtain ⟨rfl, rfl⟩ := Prod.mk.inj (Option.some.inj h_act)
              exact ⟨h_i, h_matches, h_contents, h_at⟩
            · next h_at =>
              obtain ⟨rfl, rfl⟩ := Prod.mk.inj (Option.some.inj h_act)
              exact ⟨i, h_turn, ⟨h_matches, h_at⟩, h_contents⟩
        · exact nomatch h_act
    | seekWrite =>
      cases rc with
      | none =>
        obtain ⟨rfl, rfl⟩ := Prod.mk.inj (Option.some.inj h_act)
        exact fun h_clean => h_rc h_clean rfl
      | some k =>
        obtain ⟨rfl, rfl⟩ := Prod.mk.inj (Option.some.inj h_act)
        exact ⟨h_i, h_matches, h_contents, h_off, h_stage⟩
    | write =>
      cases rc with
      | none =>
        obtain ⟨rfl, rfl⟩ := Prod.mk.inj (Option.some.inj h_act)
        exact fun h_clean => absurd (h_rc h_clean) (by simp [SdNoError])
      | some k =>
        obtain ⟨h_pos, h_at⟩ := h_stage
        dsimp only at h_act
        split at h_act
        · split at h_act
          · next h_short =>
            obtain ⟨rfl, rfl⟩ := Prod.mk.inj (Option.some.inj h_act)
            exact fun h_clean => h_short (Option.some.inj (h_rc h_clean))
          · next h_full =>
            obtain rfl : k = sdBlockSize := not_not.mp h_full
            obtain ⟨rfl, rfl⟩ := Prod.mk.inj (Option.some.inj h_act)
            refine ⟨h_turn, (matches_succ h_compare h_turn).mpr ⟨h_matches, h_at⟩, ?_, trivial⟩
            have h_le : i * sdBlockSize ≤ dataWrite.length := by
              rw [h_write]
              exact Nat.mul_le_mul_right _ h_i
            rw [h_pos, h_contents, store_next h_le]
        · exact nomatch h_act

/-- **How `cmpwrite` can end.** By induction over the run, the invariant being
kept by every call. -/
theorem sdInv_of_alone {clean : Prop} {result : CmpwriteResult} {f f' : SdFile}
    (h_range : (blockNr.toNat + nBlocks.toNat) * sdBlockSize < 2 ^ 64)
    (h_write : dataWrite.length = nBlocks.toNat * sdBlockSize)
    (h_compare : dataCompare.length = nBlocks.toNat * sdBlockSize)
    (h : Alone (sdProgram serial) (.cmpwrite blockNr nBlocks dataWrite dataCompare)
      (fun rc w => clean → SdNoError rc w) (.turn 0 .seekRead) f (.compared result) f') :
    SdInv blockNr nBlocks dataWrite dataCompare f.contents clean (.compared result) f' := by
  refine h.invariant (I := SdInv blockNr nBlocks dataWrite dataCompare f.contents clean) ?_ ?_ ?_
  · intro rc w f₁ w' f₂ h_inv h_rc h_act
    exact sdInv_act h_range h_write h_compare h_inv h_rc h_act
  · intro rc w f₁ f₂ h_inv h_rc h_env
    exact nomatch h_env
  · refine ⟨Nat.zero_le _, matches_zero, ?_, trivial⟩
    rw [Nat.zero_mul, List.take_zero, Medium.store_nil]

theorem alone_sdAct {sec : SdSection} {allowed : Option ℕ → SdWork → Prop} {rc : Option ℕ}
    {w w' w'' : SdWork} {f f' f'' : SdFile} (h_act : sdAct rc sec w f = some (w', f'))
    (h_allowed : allowed rc w) (rest : Alone (sdProgram serial) sec allowed w' f' w'' f'') :
    Alone (sdProgram serial) sec allowed w f w'' f'' :=
  @Alone.act _ _ _ _ _ _ (sdProgram serial) sec allowed rc w w' w'' f f' f'' h_allowed h_act rest

/-- It does end, from any turn of its loop. By induction on the blocks that are
left, with calls that work. -/
theorem exists_sdEnds {k i : ℕ} (h_left : i + k = nBlocks.toNat) (f : SdFile) :
    ∃ result f', Alone (sdProgram serial) (.cmpwrite blockNr nBlocks dataWrite dataCompare)
      (fun rc w => True → SdNoError rc w) (.turn i .seekRead) f (.compared result) f' := by
  -- induction on the blocks that are left; a turn that matches takes four calls
  induction k generalizing i f with
  | zero =>
    have h_turn : ¬ i < nBlocks.toNat := by omega
    have h_act : sdAct (some 0) (.cmpwrite blockNr nBlocks dataWrite dataCompare)
        (.turn i .seekRead) f = some (.compared .ok, f) := by
      rw [sdAct, if_neg h_turn]
    exact ⟨.ok, f, alone_sdAct h_act (fun _ => by simp [SdNoError]) (.refl _ _)⟩
  | succ k ih =>
    have h_turn : i < nBlocks.toNat := by omega
    let off := sdOffset (blockNr + UInt64.ofNat i)
    have h_seek : sdAct (some 0) (.cmpwrite blockNr nBlocks dataWrite dataCompare)
        (.turn i .seekRead) f = some (.turn i .read, { f with pos := off }) := by
      rw [sdAct, if_pos h_turn]
    by_cases h_at : f.contents.slice off sdBlockSize =
        (dataCompare.drop (i * sdBlockSize)).take sdBlockSize
    · have h_read : sdAct (some sdBlockSize) (.cmpwrite blockNr nBlocks dataWrite dataCompare)
          (.turn i .read) { f with pos := off } =
          some (.turn i .seekWrite, { f with pos := off + sdBlockSize }) := by
        rw [sdAct, if_pos h_turn]
        dsimp only
        rw [if_pos le_rfl, if_neg (not_not.mpr rfl), if_pos h_at]
      have h_back : sdAct (some 0) (.cmpwrite blockNr nBlocks dataWrite dataCompare)
          (.turn i .seekWrite) { f with pos := off + sdBlockSize } =
          some (.turn i .write, { f with pos := off }) := by
        rw [sdAct, if_pos h_turn]
      let block := (dataWrite.drop (i * sdBlockSize)).take sdBlockSize
      have h_write : sdAct (some sdBlockSize) (.cmpwrite blockNr nBlocks dataWrite dataCompare)
          (.turn i .write) { f with pos := off } =
          some (.turn (i + 1) .seekRead,
            { contents := f.contents.store off block, pos := off + sdBlockSize }) := by
        rw [sdAct, if_pos h_turn]
        dsimp only
        rw [if_pos le_rfl, if_neg (not_not.mpr rfl)]
      obtain ⟨result, f', h_rest⟩ := ih (i := i + 1) (by omega)
        { contents := f.contents.store off block, pos := off + sdBlockSize }
      refine ⟨result, f', alone_sdAct h_seek (fun _ => by simp [SdNoError]) ?_⟩
      refine alone_sdAct h_read (fun _ => rfl) ?_
      refine alone_sdAct h_back (fun _ => by simp [SdNoError]) ?_
      exact alone_sdAct h_write (fun _ => rfl) h_rest
    · have h_read : sdAct (some sdBlockSize) (.cmpwrite blockNr nBlocks dataWrite dataCompare)
          (.turn i .read) { f with pos := off } =
          some (.compared .mismatch, { f with pos := off + sdBlockSize }) := by
        rw [sdAct, if_pos h_turn]
        dsimp only
        rw [if_pos le_rfl, if_neg (not_not.mpr rfl), if_neg h_at]
      refine ⟨.mismatch, { f with pos := off + sdBlockSize },
        alone_sdAct h_seek (fun _ => by simp [SdNoError]) ?_⟩
      exact alone_sdAct h_read (fun _ => rfl) (.refl _ _)

/-- A run with I/O errors or without them. -/
theorem SdEnds.mono {P : Program Unit SdSection SdWork SdFile (Option ℕ)} {f : SdFile}
    {result : CmpwriteResult} {m' : Medium UInt8}
    (h : SdEnds P blockNr nBlocks dataWrite dataCompare f True result m') :
    SdEnds P blockNr nBlocks dataWrite dataCompare f False result m' := by
  obtain ⟨f', h_alone, h_contents⟩ := h
  exact ⟨f', h_alone.mono fun _ _ _ h_clean => absurd h_clean id, h_contents⟩

/-- **The backends on SD cards** do all or nothing exactly when nothing is to be
changed in front of the first block that does not match. -/
theorem sd_allOrNothing_iff (f : SdFile)
    (h_range : (blockNr.toNat + nBlocks.toNat) * sdBlockSize < 2 ^ 64)
    (h_write : dataWrite.length = nBlocks.toNat * sdBlockSize)
    (h_compare : dataCompare.length = nBlocks.toNat * sdBlockSize) :
    AllOrNothing (SdEnds (sdProgram serial) blockNr nBlocks dataWrite dataCompare f) f.contents
        (blockNr.toNat * sdBlockSize) dataWrite dataCompare ↔
      KeepsBlocks f.contents (blockNr.toNat * sdBlockSize) sdBlockSize nBlocks.toNat dataWrite
        dataCompare := by
  have h_take : ∀ {j : ℕ}, j < nBlocks.toNat →
      (dataWrite.take (j * sdBlockSize)).length = j * sdBlockSize := by
    intro j hj
    apply List.length_take_of_le
    rw [h_write]
    exact Nat.mul_le_mul_right _ hj.le
  have h_exists : ∃ result f', Alone (sdProgram serial)
      (.cmpwrite blockNr nBlocks dataWrite dataCompare) (fun rc w => True → SdNoError rc w)
      (.turn 0 .seekRead) f (.compared result) f' := exists_sdEnds (Nat.zero_add _) f
  obtain ⟨result, f', h_run⟩ := h_exists
  constructor
  · -- the run without errors ends at the first mismatch, with the blocks in front of it written
    intro h j hj h_first
    have h_inv := sdInv_of_alone h_range h_write h_compare h_run
    cases result with
    | ok => exact absurd h_inv.1 (not_matches h_compare hj h_first.2)
    | readError => exact absurd trivial h_inv
    | writeError => exact absurd trivial h_inv
    | mismatch =>
      obtain ⟨j', hj', h_first', h_contents⟩ := h_inv
      obtain rfl := h_first.unique h_compare h_first' hj hj'
      have h_same := h.mismatch f'.contents (SdEnds.mono ⟨f', h_run, rfl⟩)
      rw [h_contents, Medium.store_eq_self_iff, h_take hj] at h_same
      exact h_same.symm.trans h_first.1
  · intro h_keeps
    refine ⟨⟨result, _, f', h_run, rfl⟩, ?_, ?_, ?_⟩
    · rintro result m' ⟨f', h_run, rfl⟩
      have h_inv := sdInv_of_alone h_range h_write h_compare h_run
      rw [← matches_iff h_compare]
      cases result with
      | ok => exact iff_of_true rfl h_inv.1
      | readError => exact absurd trivial h_inv
      | writeError => exact absurd trivial h_inv
      | mismatch =>
        obtain ⟨j, hj, h_first, -⟩ := h_inv
        exact iff_of_false (by simp) (not_matches h_compare hj h_first.2)
    · rintro m' ⟨f', h_run, rfl⟩
      have h_inv := sdInv_of_alone h_range h_write h_compare h_run
      rw [h_inv.2]
      exact Medium.slice_store _ _ _
    · rintro m' ⟨f', h_run, rfl⟩
      obtain ⟨j, hj, h_first, h_contents⟩ := sdInv_of_alone h_range h_write h_compare h_run
      rw [h_contents, Medium.store_eq_self_iff, h_take hj, h_keeps j hj h_first]
      exact h_first.1

end Sd

end IscsiTarget
