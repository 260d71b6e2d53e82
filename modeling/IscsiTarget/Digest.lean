import IscsiTarget.Lib.Crc
import IscsiTarget.Receive.Stages

/-!
# The digest

`crc32_0x11EDC6F41` is CRC-32C: the table has the right words (`crc32cTable_eq`), so that a turn of
the loop is a step of `Crc.tableStep`, and the general theory does the rest. `crc32c_eq` says this
of every message, and that a message may be handed over in parts; `receive_pdu` does that for the
header and the additional header segments behind it.
-/

namespace IscsiTarget

/-- The polynomial of CRC-32C, with its bits reflected. -/
def crc32cPoly : BitVec 32 := 0x82F63B78

/-- CRC-32C, bit by bit. -/
def crc32cBitwise (data : Bytes) : UInt32 :=
  ⟨Crc.remainder crc32cPoly 0xFFFFFFFF data ^^^ 0xFFFFFFFF⟩

/-- The words of the table. -/
def crc32cWord (i : ℕ) : BitVec 32 := crc32cTable[i]!.toBitVec

/-- Each word of the table is eight steps of the polynomial. -/
theorem crc32cTable_eq :
    ∀ i < 256, crc32cWord i = Crc.polySteps crc32cPoly 8 (BitVec.ofNat 32 i) := by
  decide +kernel

/-- A byte as a word. -/
theorem toBitVec_toUInt32 (d : UInt8) : d.toUInt32.toBitVec = BitVec.ofNat 32 d.toNat := by
  apply BitVec.eq_of_toNat_eq
  rw [BitVec.toNat_ofNat, Nat.mod_eq_of_lt (lt_trans d.toNat_lt (by decide))]
  rfl

theorem toBitVec_crc32cStep (crc : UInt32) (d : UInt8) :
    (crc32cStep crc d).toBitVec = Crc.tableStep crc32cWord crc.toBitVec d := by
  have h_index : ((crc ^^^ d.toUInt32) &&& 0xff).toNat =
      (crc.toBitVec ^^^ BitVec.ofNat 32 d.toNat).toNat % 256 := by
    rw [UInt32.toNat_and, show (0xff : UInt32).toNat = 2 ^ 8 - 1 from rfl,
      Nat.and_two_pow_sub_one_eq_mod, ← toBitVec_toUInt32]
    rfl
  unfold crc32cStep Crc.tableStep crc32cWord
  rw [h_index]
  rfl

/-- The loop, from any remainder. -/
theorem toBitVec_foldl_crc32cStep (crc : UInt32) (data : Bytes) :
    (data.foldl crc32cStep crc).toBitVec = Crc.remainder crc32cPoly crc.toBitVec data := by
  rw [← Crc.foldl_tableStep (by decide) crc32cTable_eq]
  induction data generalizing crc with
  | nil => rfl
  | cons d data ih => rw [List.foldl_cons, List.foldl_cons, ih, toBitVec_crc32cStep]

/-- The second component is the remainder. -/
theorem toBitVec_crc32c_snd (data : Bytes) (startWith : Option UInt32) :
    (crc32c data startWith).2.toBitVec =
      Crc.remainder crc32cPoly (startWith.getD 0xffffffff).toBitVec data :=
  toBitVec_foldl_crc32cStep _ _

theorem crc32c_fst (data : Bytes) : (crc32c data none).1 = crc32cBitwise data := by
  apply UInt32.toBitVec_inj.mp
  have h_ones : (0xFFFFFFFF : BitVec 32) = BitVec.allOnes 32 := by decide
  calc (crc32c data none).1.toBitVec
      = ~~~(crc32c data none).2.toBitVec := rfl
    _ = (crc32c data none).2.toBitVec ^^^ 0xFFFFFFFF := by rw [h_ones, BitVec.xor_allOnes]
    _ = (crc32cBitwise data).toBitVec := by rw [toBitVec_crc32c_snd]; rfl

/-- A message in two parts. -/
theorem crc32c_append (a b : Bytes) (startWith : Option UInt32) :
    crc32c b (some (crc32c a startWith).2) = crc32c (a ++ b) startWith := by
  unfold crc32c
  rw [List.foldl_append]
  rfl

/-- The digest `receive_pdu` computes: over the header, and then over the
additional header segments behind it, if it has any. -/
theorem headerCrc_eq (l : Link) (bhs : Header) :
    Reception.headerCrc l bhs (crc32c bhs.toList none) =
      crc32cBitwise (bhs.toList ++ l.ahead bhs.getAhsLength) := by
  rw [← crc32c_fst, ← crc32c_append]
  unfold Reception.headerCrc
  split
  case isTrue h_zero =>
    rw [h_zero]
    rfl
  case isFalse => rfl

/-- **CRC-32C.** The first component is the checksum bit by bit, the second one
resumes, and `receive_pdu` compares the header digest with the checksum of all
header bytes. -/
theorem crc32c_eq :
    (∀ data : Bytes, (crc32c data none).1 = crc32cBitwise data) ∧
    (∀ a b : Bytes, crc32c b (some (crc32c a none).2) = crc32c (a ++ b) none) ∧
    ∀ (l : Link) (bhs : Header), Reception.headerCrc l bhs (crc32c bhs.toList none) =
      crc32cBitwise (bhs.toList ++ l.ahead bhs.getAhsLength) :=
  ⟨crc32c_fst, fun a b => crc32c_append a b none, headerCrc_eq⟩

/-- The check value of CRC-32C: the checksum of the digits from 1 to 9. -/
example : (crc32c (ascii "123456789") none).1 = 0xE3069283 := by decide +kernel

end IscsiTarget
