import IscsiTarget.Storage.Contract
import IscsiTarget.Storage.Isolation

/-!
# `cmpwrite` of the file backend

It compares everything and then writes once. `CmpwriteInv` holds at every step, so nothing
has changed when a block does not match.
-/

namespace IscsiTarget

open LockedSections

namespace FilePlatform

variable (p : FilePlatform) (nBlocks : UInt32) in
/-- The system call works: it moves all the bytes it is asked for. -/
def NoError (rc : Option ℕ) : FileWork → Prop
  | .turn i => rc = some (if i < nBlocks.toNat then p.blockSize else nBlocks.toNat * p.blockSize)
  | _ => True

/-- `backend_file::cmpwrite` on a file with the contents `m`. Nobody else is at
work on the file; the system calls have any result they can have, but none of
them an error when `clean` holds. -/
def CmpwriteEnds (p : FilePlatform) (blockNr : UInt64) (nBlocks : UInt32)
    (dataWrite dataCompare : Bytes) (m : Medium UInt8) (clean : Prop) (result : CmpwriteResult)
    (m' : Medium UInt8) : Prop :=
  Alone p.program (.cmpwrite blockNr nBlocks dataWrite dataCompare)
    (fun rc w => clean → p.NoError nBlocks rc w) (.turn 0) m (.compared result) m'

variable {p : FilePlatform} {blockNr : UInt64} {nBlocks : UInt32} {dataWrite dataCompare : Bytes}
  {m : Medium UInt8}

/-- What holds while `cmpwrite` is at work, and when it is done. Nothing is
written before all blocks have been compared, so that the file is the one it
began with in every turn. -/
def CmpwriteInv (p : FilePlatform) (blockNr : UInt64) (nBlocks : UInt32)
    (dataWrite dataCompare : Bytes) (m : Medium UInt8) (clean : Prop) (w : FileWork)
    (file : Medium UInt8) : Prop :=
  let off := blockNr.toNat * p.blockSize
  match w with
  | .turn i => file = m ∧ i ≤ nBlocks.toNat ∧ Matches m off p.blockSize dataCompare i
  | .compared .ok =>
    Matches m off p.blockSize dataCompare nBlocks.toNat ∧ file = m.store off dataWrite
  | .compared .mismatch => file = m ∧ ¬ Matches m off p.blockSize dataCompare nBlocks.toNat
  | .compared _ => ¬ clean
  | .done _ => False

/-- A system call of `cmpwrite`. A `pread` leaves the file as it is, and the
`pwrite` comes when all blocks have been found equal. -/
theorem cmpwriteInv_act {clean : Prop} {rc : Option ℕ} {w w' : FileWork}
    {file file' : Medium UInt8} (h_range : p.Addressable (blockNr, nBlocks))
    (h_write : dataWrite.length = nBlocks.toNat * p.blockSize)
    (h_compare : dataCompare.length = nBlocks.toNat * p.blockSize)
    (h : CmpwriteInv p blockNr nBlocks dataWrite dataCompare m clean w file)
    (h_rc : clean → p.NoError nBlocks rc w)
    (h_act : p.act rc (.cmpwrite blockNr nBlocks dataWrite dataCompare) w file =
      some (w', file')) :
    CmpwriteInv p blockNr nBlocks dataWrite dataCompare m clean w' file' := by
  have h_lt : (blockNr.toNat + nBlocks.toNat) * p.blockSize < 2 ^ 64 :=
    h_range.trans (by norm_num)
  cases w with
  | done ok => cases h_act
  | compared result => cases h_act
  | turn i =>
    obtain ⟨rfl, h_i, h_matches⟩ := h
    -- a turn reads block `i` and compares it; behind the last turn everything is written at once
    simp only [act] at h_act
    split at h_act
    · next h_turn =>
      have h_off : p.offset (blockNr + UInt64.ofNat i) =
          blockNr.toNat * p.blockSize + i * p.blockSize :=
        toNat_offset h_lt p.blockSize_pos h_i
      rw [h_off] at h_act
      split at h_act
      · split at h_act
        · next h_at =>
          obtain ⟨rfl, rfl⟩ := Prod.mk.inj (Option.some.inj h_act)
          exact ⟨rfl, h_turn, (matches_succ h_compare h_turn).mpr ⟨h_matches, h_at⟩⟩
        · next h_at =>
          obtain ⟨rfl, rfl⟩ := Prod.mk.inj (Option.some.inj h_act)
          exact ⟨rfl, not_matches h_compare h_turn h_at⟩
      · next h_short =>
        obtain ⟨rfl, rfl⟩ := Prod.mk.inj (Option.some.inj h_act)
        intro h_clean
        have h_full : rc = some _ := h_rc h_clean
        rw [if_pos h_turn] at h_full
        exact h_short h_full
    · next h_turn =>
      obtain rfl : i = nBlocks.toNat := by omega
      -- the loop is through, so all the blocks match
      obtain ⟨⟨rc', file''⟩, h_pwrite, h_eq⟩ := Option.map_eq_some_iff.mp h_act
      obtain ⟨rfl, rfl⟩ := Prod.mk.inj h_eq
      split
      · next h_full =>
        refine ⟨h_matches, ?_⟩
        have h_off : p.offset blockNr = blockNr.toNat * p.blockSize := h_range.offset_eq
        unfold pwrite at h_pwrite
        rw [h_off] at h_pwrite
        split at h_pwrite
        · obtain ⟨rfl, -⟩ := Prod.mk.inj (Option.some.inj h_pwrite)
          exact absurd h_full (by simp)
        · next k =>
          split at h_pwrite
          · obtain ⟨rfl, rfl⟩ := Prod.mk.inj (Option.some.inj h_pwrite)
            obtain rfl := Option.some.inj h_full
            rw [← h_write, List.take_length]
          · cases h_pwrite
      · next h_short =>
        intro h_clean
        have h_full : rc = some _ := h_rc h_clean
        rw [if_neg h_turn] at h_full
        subst h_full
        unfold pwrite at h_pwrite
        dsimp only at h_pwrite
        split at h_pwrite
        · obtain ⟨rfl, rfl⟩ := Prod.mk.inj (Option.some.inj h_pwrite)
          exact h_short rfl
        · cases h_pwrite

/-- **How `cmpwrite` can end.** -/
theorem cmpwriteInv_of_ends {clean : Prop} {result : CmpwriteResult} {m' : Medium UInt8}
    (h_range : p.Addressable (blockNr, nBlocks))
    (h_write : dataWrite.length = nBlocks.toNat * p.blockSize)
    (h_compare : dataCompare.length = nBlocks.toNat * p.blockSize)
    (h : p.CmpwriteEnds blockNr nBlocks dataWrite dataCompare m clean result m') :
    CmpwriteInv p blockNr nBlocks dataWrite dataCompare m clean (.compared result) m' := by
  refine Alone.invariant h (I := CmpwriteInv p blockNr nBlocks dataWrite dataCompare m clean)
    ?_ ?_ ⟨rfl, Nat.zero_le _, matches_zero⟩
  · intro rc w file w' file' h_inv h_rc h_act
    exact cmpwriteInv_act h_range h_write h_compare h_inv h_rc h_act
  · intro rc w file file' h_inv h_rc h_env
    cases h_env

/-- It does end, from any turn of its loop. By induction on the blocks that are
left, with system calls that move all their bytes. -/
theorem exists_cmpwriteEnds (h_range : p.Addressable (blockNr, nBlocks)) {k i : ℕ}
    (h_left : i + k = nBlocks.toNat) :
    ∃ result m', Alone p.program (.cmpwrite blockNr nBlocks dataWrite dataCompare)
      (fun rc w => True → p.NoError nBlocks rc w) (.turn i) m (.compared result) m' := by
  induction k generalizing i with
  | zero =>
    -- the write
    have h_turn : ¬ i < nBlocks.toNat := by omega
    have h_off : p.offset blockNr = blockNr.toNat * p.blockSize := h_range.offset_eq
    have h_end : p.offset blockNr + nBlocks.toNat * p.blockSize < 2 ^ 63 := by
      rw [h_off, ← Nat.add_mul]
      exact h_range
    have h_act : p.act (some (nBlocks.toNat * p.blockSize))
        (.cmpwrite blockNr nBlocks dataWrite dataCompare) (.turn i) m =
        some (.compared .ok, m.store (p.offset blockNr)
          (dataWrite.take (nBlocks.toNat * p.blockSize))) := by
      simp only [act, if_neg h_turn, pwrite, le_refl, h_end, and_self, if_true, Option.map_some]
    exact ⟨.ok, _, .act (fun _ => congrArg some (if_neg h_turn).symm) h_act (.refl _ _)⟩
  | succ k ih =>
    have h_turn : i < nBlocks.toNat := by omega
    have h_clean : True → p.NoError nBlocks (some p.blockSize) (.turn i) :=
      fun _ => congrArg some (if_pos h_turn).symm
    by_cases h_at : m.slice (p.offset (blockNr + UInt64.ofNat i)) p.blockSize =
        (dataCompare.drop (i * p.blockSize)).take p.blockSize
    · obtain ⟨result, m', h_rest⟩ := ih (i := i + 1) (by omega)
      refine ⟨result, m', .act h_clean ?_ h_rest⟩
      simp only [program, act, if_pos h_turn, if_true, if_pos h_at]
    · refine ⟨.mismatch, m, .act h_clean ?_ (.refl _ _)⟩
      simp only [program, act, if_pos h_turn, if_true, if_neg h_at]

/-- **The file backend** does all or nothing. It compares everything before it
writes anything, and writes with a single call. -/
theorem file_allOrNothing (h_range : p.Addressable (blockNr, nBlocks))
    (h_write : dataWrite.length = nBlocks.toNat * p.blockSize)
    (h_compare : dataCompare.length = nBlocks.toNat * p.blockSize) :
    AllOrNothing (p.CmpwriteEnds blockNr nBlocks dataWrite dataCompare m) m
      (blockNr.toNat * p.blockSize) dataWrite dataCompare where
  returns := exists_cmpwriteEnds h_range (Nat.zero_add _)
  ok_iff result m' h := by
    have h_inv := cmpwriteInv_of_ends h_range h_write h_compare h
    rw [← matches_iff h_compare]
    cases result with
    | ok => exact iff_of_true rfl h_inv.1
    | mismatch => exact iff_of_false (by simp) h_inv.2
    | readError => exact absurd trivial h_inv
    | writeError => exact absurd trivial h_inv
  ok_holds m' h := by
    have h_inv := cmpwriteInv_of_ends h_range h_write h_compare h
    rw [h_inv.2]
    exact Medium.slice_store _ _ _
  mismatch m' h := (cmpwriteInv_of_ends h_range h_write h_compare h).1

end FilePlatform

end IscsiTarget
