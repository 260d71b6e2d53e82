import IscsiTarget.Snmp.Dotted
import IscsiTarget.Snmp.Oid
import IscsiTarget.Snmp.Payload

/-!
# An OID there and back

`snmp_oid` writes the arcs of a text in base 128 and `get_OID` prints what it reads. The bytes
of one arc are `arcBytes`: all its digits but the last have the continuation bit. The encoder
writes them for every number it reads off the text (`snmpOid_content`), and the decoder makes
one 32-bit number of them (`getOidLoop_arcBytes`).

Up to there nothing is lost below `2 ^ 32`. The decoder prints that number with `%d`, however,
which is the arc again only below `2 ^ 31`: `oidRoundTrip_iff`.
-/

namespace IscsiTarget

open Buffer

/-! ### The bytes of an arc -/

/-- What is in `temp` when a number has been put there: its digits, the least
significant one first. -/
def groups (n : ℕ) : Bytes := if n = 0 then [0] else (Nat.digits 128 n).map UInt8.ofNat

/-- What the second inner loop makes of it. -/
def flushed : Bytes → Bytes
  | [] => []
  | d :: ds => (ds.map (· ||| 128)).reverse ++ [d]

/-- The bytes of an arc. -/
def arcBytes (n : ℕ) : Bytes := flushed (groups n)

theorem arcBytes_eq (n : ℕ) :
    arcBytes n =
      ((Nat.digits 128 (n / 128)).reverse.map fun d => UInt8.ofNat d ||| 128) ++
        [UInt8.ofNat (n % 128)] := by
  unfold arcBytes groups
  split
  · -- zero is one digit, the others have their last digit apart
    next h =>
    subst h
    rfl
  · next h =>
    rw [Nat.digits_eq_cons_digits_div (by norm_num) h, List.map_cons, flushed, List.map_map,
      List.map_reverse]
    rfl

theorem flushed_append (ds : Bytes) (b : UInt8) :
    flushed (ds ++ [b]) = (b ||| if ds.length = 0 then 0 else 128) :: flushed ds := by
  cases ds with
  | nil => simp [flushed]
  | cons d ds => simp [flushed]

/-! ### The encoder -/

theorem oidPutLoop_take {temp temp' : Bytes} {tempO v k : ℕ}
    (h : oidPutLoop temp tempO v = some (temp', k)) :
    temp'.take k = temp.take tempO ++ (Nat.digits 128 v).map UInt8.ofNat := by
  -- on the number, lowest digit first
  induction v using Nat.strongRecOn generalizing temp tempO with
  | ind v ih =>
    rw [oidPutLoop] at h
    split at h
    · next hv =>
      cases h
      rw [hv, Nat.digits_zero, List.map_nil, List.append_nil]
    · next hv =>
      obtain ⟨temp₁, h_put, h_rest⟩ := Option.bind_eq_some_iff.mp h
      have h_lt : v / 128 < v := Nat.div_lt_self (Nat.pos_of_ne_zero hv) (by norm_num)
      rw [ih (v / 128) h_lt h_rest, take_of_put h_put,
        Nat.digits_eq_cons_digits_div (by norm_num) hv, List.map_cons, List.append_assoc,
        List.singleton_append]

theorem oidPut_take {temp temp' : Bytes} {v k : ℕ} (h : oidPut temp v = some (temp', k)) :
    temp'.take k = groups v := by
  unfold oidPut at h
  unfold groups
  split at h
  · next hv =>
    obtain ⟨temp₁, h_put, h_some⟩ := Option.bind_eq_some_iff.mp h
    cases h_some
    rw [if_pos hv, take_of_put h_put]
    rfl
  · next hv =>
    rw [if_neg hv, oidPutLoop_take h]
    rfl

theorem oidFlushLoop_take {temp v v' : Bytes} {tempO p p' : ℕ} (h_temp : tempO ≤ temp.length)
    (h : oidFlushLoop temp tempO v p = some (v', p')) :
    v'.take p' = v.take p ++ flushed (temp.take tempO) := by
  induction tempO generalizing v p with
  | zero =>
    cases h
    rw [List.take_zero, flushed, List.append_nil]
  | succ t ih =>
    obtain ⟨v₁, h_put, h_rest⟩ := Option.bind_eq_some_iff.mp h
    have h_len : (temp.take t).length = t := by
      rw [List.length_take]
      omega
    -- the last digit that was put comes out first
    have h_take : temp.take (t + 1) = temp.take t ++ [temp.getD t 0] := by
      rw [List.take_add_one, List.getD_eq_getElem?_getD, List.getElem?_eq_getElem (by omega)]
      rfl
    rw [ih (by omega) h_rest, take_of_put h_put, h_take, flushed_append, h_len, List.append_assoc,
      List.singleton_append]

/-- Behind what was there, the outer loop leaves the bytes of all the numbers.
By induction on the text, an arc at a time. -/
theorem oidLoop_take (work : Bytes) {temp v v' : Bytes} {p p' : ℕ} (h_temp : temp.length = 10)
    (h : oidLoop work temp v p = some (v', p')) :
    v'.take p' = v.take p ++ (oidNumbers work).flatMap arcBytes := by
  induction h_n : work.length using Nat.strongRecOn generalizing work temp v p with
  | ind n ih =>
    subst h_n
    by_cases h_work : work = []
    · subst h_work
      rw [oidLoop, if_pos rfl] at h
      cases h
      rw [oidNumbers, dif_pos rfl, List.flatMap_nil, List.append_nil]
    · rw [oidLoop_of_ne h_work] at h
      have h_lt := longToUint64_lt (atoll work)
      obtain ⟨temp₁, h_put, h_temp₁⟩ := oidPut_eq h_temp h_lt
      rw [h_put, Option.bind_some] at h
      obtain ⟨⟨v₁, p₁⟩, h_flush, h_rest⟩ := Option.bind_eq_some_iff.mp h
      -- a number of 64 bits has ten digits at most, so `temp` has all of them
      have h_ten : baseLength (longToUint64 (atoll work)) ≤ temp₁.length :=
        h_temp₁ ▸ baseLength_le_ten h_lt
      have h_numbers : oidNumbers work =
          longToUint64 (atoll work) :: oidNumbers (afterDot work) := by
        rw [oidNumbers, dif_neg h_work]
      rw [ih _ (afterDot_length h_work) (afterDot work) h_temp₁ h_rest rfl,
        oidFlushLoop_take h_ten h_flush, oidPut_take h_put, h_numbers, List.flatMap_cons,
        List.append_assoc, arcBytes]

/-- The constructor on a text that starts with `1.3.` and has the room: the byte
43 and then the arcs that are left. -/
theorem snmpOid_content {oid : Bytes} (h_start : oid.take 4 = ascii "1.3.")
    (h_le : oidLength oid ≤ oid.length) :
    ∃ v, snmpOid oid = some (.oid v (UInt8.ofNat (oidLength oid + 2))) ∧
      v.take (oidLength oid) = 43 :: (oidNumbers (oid.drop 4)).flatMap arcBytes := by
  have h_temp : (newBuffer 10).length = 10 := List.length_replicate
  have h_pos : 0 < (newBuffer oid.length).length := by
    have h_ascii : (ascii "1.3.").length = 4 := rfl
    have h := congrArg List.length h_start
    rw [List.length_take, h_ascii] at h
    rw [newBuffer, List.length_replicate]
    omega
  have h_length : oidLength oid = 1 + numbersLength (oidNumbers (oid.drop 4)) := by
    rw [oidLength, if_pos h_start]
  -- the first byte is 43, and the loop writes behind it
  obtain ⟨v, h_put, h_len⟩ := exists_put (43 : UInt8) h_pos
  rw [newBuffer, List.length_replicate] at h_len
  obtain ⟨v', h_loop, -⟩ :=
    (oidLoop_spec (oid.drop 4) (v := v) (p := 1) h_temp (by omega)).1 (by omega)
  rw [← h_length] at h_loop
  refine ⟨v', ?_, ?_⟩
  · unfold snmpOid
    dsimp only
    rw [if_pos h_start]
    simp only [h_put, h_loop, bind, Option.bind]
  · have h_one : v.take 1 = [43] := take_of_put h_put
    rw [oidLoop_take (oid.drop 4) h_temp h_loop, h_one, List.singleton_append]

/-! ### The decoder -/

/-- One turn of `v <<= 7; v |= …`, which is arithmetic modulo `2 ^ 32`. -/
theorem shift_or (m : ℕ) {d : ℕ} (h : d < 128) :
    UInt32.ofNat m <<< 7 ||| UInt32.ofNat d = UInt32.ofNat (m * 128 + d) := by
  have h_seven : (7 : UInt32).toNat % 32 = 7 := rfl
  apply UInt32.toNat.inj
  rw [UInt32.toNat_or, UInt32.toNat_shiftLeft, h_seven, UInt32.toNat_ofNat', UInt32.toNat_ofNat',
    UInt32.toNat_ofNat', Nat.shiftLeft_eq]
  have h_shift : m % 2 ^ 32 * 2 ^ 7 % 2 ^ 32 = 2 ^ 7 * (m % 2 ^ 25) := by omega
  have h_d : d % 2 ^ 32 = d := by omega
  rw [h_shift, h_d, ← Nat.two_pow_add_eq_or_of_lt (show d < 2 ^ 7 from h)]
  omega

/-- The two kinds of bytes. -/
theorem high_byte {d : ℕ} (h : d < 128) :
    ¬UInt8.ofNat d ||| 128 < 128 ∧
      ((UInt8.ofNat d ||| 128) &&& 127).toUInt32 = UInt32.ofNat d := by
  decide +revert

theorem low_byte {d : ℕ} (h : d < 128) :
    UInt8.ofNat d < 128 ∧ (UInt8.ofNat d).toUInt32 = UInt32.ofNat d := by
  decide +revert

theorem getOidLoop_high {ds : List ℕ} (h_ds : ∀ d ∈ ds, d < 128) (m : ℕ) (rest oidOut : Bytes) :
    getOidLoop ((ds.map fun d => UInt8.ofNat d ||| 128) ++ rest) false (UInt32.ofNat m) oidOut =
      getOidLoop rest false (UInt32.ofNat (ds.foldl (fun m d => m * 128 + d) m)) oidOut := by
  induction ds generalizing m with
  | nil => rfl
  | cons d ds ih =>
    have h_d := h_ds d List.mem_cons_self
    obtain ⟨h_not, h_bits⟩ := high_byte h_d
    rw [List.map_cons, List.cons_append, getOidLoop, if_neg h_not, h_bits, shift_or m h_d,
      ih fun e h_e => h_ds e (List.mem_cons_of_mem d h_e), List.foldl_cons]

/-- The bytes of an arc are read as one sub-identifier, modulo 2^32. What is
behind them is left to the next turns. -/
theorem getOidLoop_arcBytes (n : ℕ) (rest oidOut : Bytes) :
    getOidLoop (arcBytes n ++ rest) false 0 oidOut =
      getOidLoop rest false 0 (oidOut ++ 46 :: subIdText (UInt32.ofNat n)) := by
  have h_digits : ∀ d ∈ (Nat.digits 128 (n / 128)).reverse, d < 128 := fun d h_d =>
    Nat.digits_lt_base (by norm_num) (List.mem_reverse.mp h_d)
  -- the digits in front of the last one are added up to `n / 128`
  have h_fold : (Nat.digits 128 (n / 128)).reverse.foldl (fun m d => m * 128 + d) 0 = n / 128 := by
    have h_foldr : ∀ ds : List ℕ, ds.foldr (fun d m => m * 128 + d) 0 = Nat.ofDigits 128 ds := by
      intro ds
      induction ds with
      | nil => rfl
      | cons d ds ih =>
        rw [List.foldr_cons, ih, Nat.ofDigits_cons]
        ring
    rw [List.foldl_reverse, h_foldr, Nat.ofDigits_digits]
  -- the last one has the continuation bit clear, which ends the number
  obtain ⟨h_low, h_bits⟩ := low_byte (Nat.mod_lt n (show 0 < 128 by norm_num))
  rw [arcBytes_eq, List.append_assoc]
  show getOidLoop _ false (UInt32.ofNat 0) oidOut = _
  rw [getOidLoop_high h_digits, h_fold, List.singleton_append, getOidLoop, if_pos h_low, h_bits,
    shift_or _ (Nat.mod_lt n (by norm_num)), Nat.div_add_mod' n 128]
  rfl

theorem getOidLoop_arcs (arcs : List ℕ) (oidOut : Bytes) :
    getOidLoop (arcs.flatMap arcBytes) false 0 oidOut =
      some (oidOut ++ dottedText (arcs.map UInt32.ofNat)) := by
  induction arcs generalizing oidOut with
  | nil => rw [List.map_nil, show dottedText [] = [] from rfl, List.append_nil]; rfl
  | cons a arcs ih =>
    rw [List.flatMap_cons, getOidLoop_arcBytes, ih, List.map_cons, dottedText_cons,
      List.append_assoc, List.cons_append]

theorem getOID_arcs (arcs : List ℕ) :
    getOID (43 :: arcs.flatMap arcBytes) =
      some (ascii "1.3" ++ dottedText (arcs.map UInt32.ofNat)) :=
  getOidLoop_arcs arcs (ascii "1.3")

/-! ### The text -/

/-- The arcs of a text behind a first one, each with its dot. -/
theorem dotted_eq (a : ℕ) (arcs : List ℕ) :
    dotted (a :: arcs) = unsignedText a ++ arcs.flatMap fun b => 46 :: unsignedText b := by
  induction arcs generalizing a with
  | nil => rw [List.flatMap_nil, List.append_nil, dotted]
  | cons b arcs ih =>
    rw [dotted_cons (List.cons_ne_nil b arcs), ih, List.flatMap_cons, List.cons_append]

theorem dotted_oneThree (arcs : List ℕ) :
    dotted (1 :: 3 :: arcs) = ascii "1.3" ++ arcs.flatMap fun b => 46 :: unsignedText b := by
  rw [dotted_cons (List.cons_ne_nil 3 arcs), dotted_eq]
  have h_one : unsignedText 1 = [49] := by decide
  have h_three : unsignedText 3 = [51] := by decide
  rw [h_one, h_three]
  rfl

/-- The encoder reads the arcs off the text as they are, as long as `atoll` can
hold them. By induction on the arcs. -/
theorem oidNumbers_dotted {arcs : List ℕ} (h : ∀ a ∈ arcs, a < 2 ^ 63) :
    oidNumbers (dotted arcs) = arcs := by
  induction arcs with
  | nil => rw [dotted, oidNumbers, dif_pos rfl]
  | cons a arcs ih =>
    have h_a := h a List.mem_cons_self
    have h_ih := ih fun b h_b => h b (List.mem_cons_of_mem a h_b)
    have h_dot := dot_notMem_unsignedText a
    -- an arc of 63 bits is no negative `long`, so the cast keeps it
    have h_long : longToUint64 (a : ℤ) = a := by
      unfold longToUint64
      omega
    rw [oidNumbers, dif_neg (dotted_ne_nil (List.cons_ne_nil a arcs))]
    by_cases h_nil : arcs = []
    · subst h_nil
      -- the last arc
      have h_read : strtoll (unsignedText a ++ []) = a :=
        strtoll_unsignedText h_a (fun b h_b => by cases h_b)
      rw [List.append_nil] at h_read
      rw [dotted, atoll, h_read, h_long, afterDot, findChar_of_notMem h_dot, oidNumbers,
        dif_pos rfl]
    · -- the number ends at the dot, and the loop goes on behind it
      have h_read : strtoll (unsignedText a ++ 46 :: dotted arcs) = a := by
        refine strtoll_unsignedText h_a fun b h_b => ?_
        cases h_b
        rfl
      have h_after : afterDot (unsignedText a ++ 46 :: dotted arcs) = dotted arcs := by
        rw [afterDot, findChar_append h_dot]
        dsimp only
        rw [← List.drop_drop, List.drop_left]
        rfl
      rw [dotted_cons h_nil, atoll, h_read, h_long, h_after, h_ih]

/-! ### The round trip -/

/-- The content `get_payload` copies behind the header of an OID. -/
def SnmpElem.oidContent : SnmpElem → Bytes
  | .oid v len => v.take (len - 2).toNat
  | _ => []

/-- `get_OID` gives the text back from the content `snmp_oid` has made of it. -/
def OidRoundTrip (oid : Bytes) : Prop :=
  ((snmpOid oid).bind fun e => getOID e.oidContent) = some oid

instance (oid : Bytes) : Decidable (OidRoundTrip oid) := inferInstanceAs (Decidable (_ = _))

theorem baseLength_le_decimalLength (n : ℕ) : baseLength n ≤ decimalLength n := by
  rw [baseLength_le_iff (decimalLength_pos n)]
  calc n < 10 ^ decimalLength n := lt_pow_decimalLength n
    _ ≤ 128 ^ decimalLength n := Nat.pow_le_pow_left (by norm_num) _

/-- The encoding of canonical arcs has room in the buffer of their text. A digit
to the base 128 stands for more than two decimal ones, and there are the dots
besides. -/
theorem oidLength_oneThree {arcs : List ℕ} (h_ne : arcs ≠ []) (h : ∀ a ∈ arcs, a < 2 ^ 63) :
    (dotted (1 :: 3 :: arcs)).take 4 = ascii "1.3." ∧
      oidNumbers ((dotted (1 :: 3 :: arcs)).drop 4) = arcs ∧
      oidLength (dotted (1 :: 3 :: arcs)) = 1 + (arcs.map baseLength).sum ∧
      oidLength (dotted (1 :: 3 :: arcs)) ≤ (dotted (1 :: 3 :: arcs)).length := by
  have h_text : dotted (1 :: 3 :: arcs) = ascii "1.3." ++ dotted arcs := by
    obtain ⟨a, arcs, rfl⟩ := List.exists_cons_of_ne_nil h_ne
    rw [dotted_oneThree, List.flatMap_cons, dotted_eq]
    rfl
  have h_take : (dotted (1 :: 3 :: arcs)).take 4 = ascii "1.3." := by
    rw [h_text]
    rfl
  have h_drop : (dotted (1 :: 3 :: arcs)).drop 4 = dotted arcs := by
    rw [h_text]
    rfl
  have h_numbers : oidNumbers ((dotted (1 :: 3 :: arcs)).drop 4) = arcs := by
    rw [h_drop, oidNumbers_dotted h]
  have h_length : oidLength (dotted (1 :: 3 :: arcs)) = 1 + (arcs.map baseLength).sum := by
    rw [oidLength, if_pos h_take, h_numbers, numbersLength]
  refine ⟨h_take, h_numbers, h_length, ?_⟩
  -- a number has no more digits to base 128 than to base 10
  have h_sum : (arcs.map baseLength).sum ≤
      (arcs.flatMap fun b => 46 :: unsignedText b).length := by
    rw [List.length_flatMap]
    refine List.sum_le_sum fun a _ => ?_
    have h_a := baseLength_le_decimalLength a
    rw [List.length_cons, length_unsignedText]
    omega
  have h_ascii : (ascii "1.3").length = 3 := rfl
  rw [h_length, dotted_oneThree, List.length_append, h_ascii]
  omega

/-- A sub-identifier is printed as the arc it was, when it is below `2 ^ 31`,
and with a minus sign otherwise. -/
theorem subIdText_ofNat {a : ℕ} (h : a < 2 ^ 31) : subIdText (UInt32.ofNat a) = unsignedText a := by
  have h_toNat : (UInt32.ofNat a).toNat = a := UInt32.toNat_ofNat_of_lt' (h.trans (by norm_num))
  rw [subIdText, subIdValue_eq, h_toNat, if_pos h, signedText, if_neg (by omega),
    Int.natAbs_natCast]

theorem minus_mem_subIdText {a : ℕ} (h : 2 ^ 31 ≤ a) (h_lt : a < 2 ^ 32) :
    (45 : UInt8) ∈ subIdText (UInt32.ofNat a) := by
  have h_toNat : (UInt32.ofNat a).toNat = a := UInt32.toNat_ofNat_of_lt' h_lt
  rw [subIdText, subIdValue_eq, h_toNat, if_neg (by omega), signedText, if_pos (by omega)]
  exact List.mem_cons_self

theorem minus_notMem_dotted (arcs : List ℕ) : (45 : UInt8) ∉ dotted (1 :: 3 :: arcs) := by
  rw [dotted_oneThree, List.mem_append, not_or]
  refine ⟨by decide, fun h => ?_⟩
  obtain ⟨b, -, h_b⟩ := List.mem_flatMap.mp h
  rcases List.mem_cons.mp h_b with h_dot | h_digit
  · exact absurd h_dot (by decide)
  · exact absurd (isDigit_of_mem h_digit) (by decide)

/-- What is printed is the text again exactly when no arc is negative as an
`int`. An arc from 2^31 on is printed with a minus sign. -/
theorem dottedText_eq_iff {arcs : List ℕ} (h_lt : ∀ a ∈ arcs, a < 2 ^ 32) :
    ascii "1.3" ++ dottedText (arcs.map UInt32.ofNat) = dotted (1 :: 3 :: arcs) ↔
      ∀ a ∈ arcs, a < 2 ^ 31 := by
  constructor
  · intro h_text a h_a
    by_contra h_not
    -- the minus sign of this arc is in the text on the left, and there is none on the right
    refine minus_notMem_dotted arcs ?_
    rw [← h_text, List.mem_append]
    right
    refine List.mem_flatMap.mpr ⟨_, List.mem_map_of_mem h_a, ?_⟩
    exact List.mem_cons_of_mem 46 (minus_mem_subIdText (not_lt.mp h_not) (h_lt a h_a))
  · intro h_small
    rw [dotted_oneThree, dottedText, List.flatMap_map]
    congr 1
    exact List.flatMap_congr fun a h_a => by rw [subIdText_ofNat (h_small a h_a)]

/-- An OID below `1.3` whose content has at most 253 bytes comes back from its
encoding exactly when all its arcs are below `2 ^ 31`. Encoding and decoding
lose nothing below `2 ^ 32`; it is the text the decoder makes of an arc, with
`%d`, that is not the one it was read from. -/
theorem oidRoundTrip_iff (arcs : List ℕ) (h_ne : arcs ≠ []) (h_lt : ∀ a ∈ arcs, a < 2 ^ 32)
    (h_content : 1 + (arcs.map baseLength).sum ≤ 253) :
    OidRoundTrip (dotted (1 :: 3 :: arcs)) ↔ ∀ a ∈ arcs, a < 2 ^ 31 := by
  obtain ⟨h_start, h_numbers, h_length, h_room⟩ :=
    oidLength_oneThree h_ne fun a h_a => (h_lt a h_a).trans (by norm_num)
  obtain ⟨v, h_oid, h_v⟩ := snmpOid_content h_start h_room
  -- the length byte has room for the content
  have h_len : (UInt8.ofNat (oidLength (dotted (1 :: 3 :: arcs)) + 2) - 2).toNat =
      oidLength (dotted (1 :: 3 :: arcs)) := by
    have h_two := toNat_sub_two
      (show 2 ≤ (UInt8.ofNat (oidLength (dotted (1 :: 3 :: arcs)) + 2)).toNat by
        rw [UInt8.toNat_ofNat']; omega)
    rw [UInt8.toNat_ofNat'] at h_two
    omega
  -- the decoder prints the numbers of the arcs, and the question is about the text
  have h_decode : ((snmpOid (dotted (1 :: 3 :: arcs))).bind fun e => getOID e.oidContent) =
      some (ascii "1.3" ++ dottedText (arcs.map UInt32.ofNat)) := by
    rw [h_oid, Option.bind_some, SnmpElem.oidContent, h_len, h_v, h_numbers, getOID_arcs]
  rw [OidRoundTrip, h_decode, Option.some_inj]
  exact dottedText_eq_iff h_lt

/-- The OID of the system group. -/
theorem oidRoundTrip_system :
    OidRoundTrip (dotted [1, 3, 6, 1, 2, 1, 1]) ↔ ∀ a ∈ [6, 1, 2, 1, 1], a < 2 ^ 31 :=
  oidRoundTrip_iff [6, 1, 2, 1, 1] (by decide) (by decide) (by decide)

/-- The arc `2 ^ 31` comes back as `-2147483648`. -/
theorem oidRoundTrip_fails :
    dotted [1, 3, 2 ^ 31] = ascii "1.3.2147483648" ∧
    ((snmpOid (ascii "1.3.2147483648")).bind fun e => getOID e.oidContent) =
      some (ascii "1.3.-2147483648") ∧
    ¬OidRoundTrip (ascii "1.3.2147483648") :=
  ⟨by decide +kernel, by decide +kernel, by decide +kernel⟩

end IscsiTarget
