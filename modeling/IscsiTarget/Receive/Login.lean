import IscsiTarget.Model.Sample
import IscsiTarget.Receive.Stages

/-!
# The parameters of a login

A login carries text parameters, and three of them are numbers. `std::stoi` reads them, and
nothing catches what it throws: `loginRequest_iff` says for which logins that happens.

The segment length of the session is the least of all the values it has been given. It ends up
zero when one of them is (`maxSegLen_logins_eq_zero_iff`).
-/

namespace IscsiTarget

/-! ### Numbers that are none -/

/-- **`set_data` of a login returns** exactly when every number in the login is
one that `std::stoi` takes. A text without digits in front throws
`std::invalid_argument` and a number outside of `int` throws
`std::out_of_range`, and nothing between there and the thread catches either. -/
theorem loginRequest_iff (ses : Session) {data : Bytes} (h_pos : 1 ≤ data.length)
    (h_lt : data.length ≤ 2 ^ 24 - 1) :
    (∃ r, loginRequestSetData ses data = .ok r) ↔
      ∀ kv ∈ dataToTextArray data, ¬ BadNumber kv := by
  have h_taken : ¬ (data.length = 0 ∨ data.length > 16777215) := by
    rintro (h | h) <;> omega
  rw [loginRequestSetData, if_neg h_taken, Reception.map_ok_iff, Reception.loginSetData_ok_iff]

theorem loginRequest_burst :
    ∃ r, loginRequestSetData (newSession (Sample.target 8)) (ascii "MaxBurstLength=512") =
      .ok r := by
  refine (loginRequest_iff _ (by decide) (by decide)).mpr fun kv h_kv => ?_
  obtain rfl : kv = ascii "MaxBurstLength=512" := by
    have h_all : dataToTextArray (ascii "MaxBurstLength=512") = [ascii "MaxBurstLength=512"] := by
      decide
    rw [h_all] at h_kv
    exact List.mem_singleton.mp h_kv
  rintro ⟨key, value, rest, f, h_split, -, h_f⟩
  have h_parts : split (ascii "MaxBurstLength=512") (ascii "=") =
      [ascii "MaxBurstLength", ascii "512"] := by decide
  obtain ⟨-, h_value⟩ := List.cons.inj (h_parts.symm.trans h_split)
  rw [← (List.cons.inj h_value).1] at h_f
  have h_number : stoi (ascii "512") = .ok 512 := rfl
  cases h_number.symm.trans h_f

/-- A number that is none. -/
theorem loginRequest_throws :
    loginRequestSetData (newSession (Sample.target 8)) (ascii "MaxBurstLength=none") =
        .error .uncaught ∧
      ¬ ∃ r, loginRequestSetData (newSession (Sample.target 8)) (ascii "MaxBurstLength=none") =
        .ok r := by
  have h_throws : loginRequestSetData (newSession (Sample.target 8))
      (ascii "MaxBurstLength=none") = .error .uncaught := rfl
  refine ⟨h_throws, fun ⟨r, h⟩ => ?_⟩
  cases h_throws.symm.trans h

/-! ### The segment length -/

/-- The parameter sets the segment length to zero. -/
def ZeroSegment (kv : Bytes) : Prop :=
  ∃ value rest, split kv (ascii "=") = ascii "MaxRecvDataSegmentLength" :: value :: rest ∧
    stoi value = .ok 0

/-- What `std::stoi` returns is an `int`. A number that is none is an exception. -/
theorem stoi_range {s : Bytes} {v : ℤ} (h : stoi s = .ok v) : -2 ^ 31 ≤ v ∧ v < 2 ^ 31 := by
  obtain ⟨digits, w, h_eq⟩ : ∃ (digits : Bytes) (w : ℤ), stoi s =
      if digits = [] then .error .invalidArgument
      else if w < -2 ^ 31 ∨ 2 ^ 31 ≤ w then .error .outOfRange else .ok w := ⟨_, _, rfl⟩
  rw [h_eq] at h
  split at h
  · cases h
  · split at h
    · cases h
    · next h_range =>
      rw [← Except.ok.inj h]
      push Not at h_range
      exact h_range

theorem intToUint32_eq_zero_iff {v : ℤ} (h : -2 ^ 31 ≤ v ∧ v < 2 ^ 31) :
    intToUint32 v = 0 ↔ v = 0 := by
  unfold intToUint32
  rw [← UInt32.toNat_inj, UInt32.toNat_ofNat']
  change _ = 0 ↔ _
  omega

theorem min_eq_zero_iff (v w : UInt32) : min v w = 0 ↔ v = 0 ∨ w = 0 := by
  rw [← UInt32.toNat_inj, UInt32.toNat_min, ← UInt32.toNat_inj, ← UInt32.toNat_inj]
  change min _ _ = 0 ↔ _ = 0 ∨ _ = 0
  omega

theorem minStoi_eq_zero_iff {v v' : UInt32} {value : Bytes} (h : minStoi v value = .ok v') :
    v' = 0 ↔ v = 0 ∨ stoi value = .ok 0 := by
  unfold minStoi at h
  cases h_stoi : stoi value with
  | error f =>
    rw [h_stoi] at h
    cases h
  | ok i =>
    rw [h_stoi] at h
    rw [← Except.ok.inj h, min_eq_zero_iff, intToUint32_eq_zero_iff (stoi_range h_stoi)]
    simp

/-- One parameter. Only the one for the segment length has to do with it, and
only when its number is zero in 32 bits. -/
theorem maxSegLen_loginParam_eq_zero_iff {p p' : LoginParams} {kv : Bytes}
    (h : loginParam p kv = .ok p') :
    p'.maxSegLen = 0 ↔ p.maxSegLen = 0 ∨ ZeroSegment kv := by
  unfold loginParam at h
  split at h
  · next key value rest h_split =>
    have h_zero : ZeroSegment kv ↔
        key = ascii "MaxRecvDataSegmentLength" ∧ stoi value = .ok 0 := by
      unfold ZeroSegment
      rw [h_split]
      constructor
      · rintro ⟨value', rest', h_eq, h_stoi⟩
        obtain ⟨h_key, h_tail⟩ := List.cons.inj h_eq
        rw [(List.cons.inj h_tail).1]
        exact ⟨h_key, h_stoi⟩
      · rintro ⟨rfl, h_stoi⟩
        exact ⟨value, rest, rfl, h_stoi⟩
    rw [h_zero]
    by_cases h_key : key = ascii "MaxRecvDataSegmentLength"
    · -- it becomes the smaller one of two numbers
      rw [if_neg (by rw [h_key]; decide), if_neg (by rw [h_key]; decide), if_pos h_key] at h
      cases h_min : minStoi p.maxSegLen value with
      | error f =>
        rw [h_min] at h
        cases h
      | ok v =>
        rw [h_min] at h
        rw [← Except.ok.inj h, and_iff_right h_key]
        exact minStoi_eq_zero_iff h_min
    · -- the others leave the segment length alone
      have h_same : p'.maxSegLen = p.maxSegLen := by
        rw [if_neg h_key] at h
        have h_burst (v : Except Fault UInt32)
            (h' : (v.map fun v => { p with maxBurst := v }) = .ok p') :
            p'.maxSegLen = p.maxSegLen := by
          cases v with
          | error f => cases h'
          | ok v => rw [← Except.ok.inj h']
        split at h
        · exact h_burst _ h
        split at h
        · exact h_burst _ h
        split at h
        · rw [← Except.ok.inj h]
        split at h <;> rw [← Except.ok.inj h]
      rw [h_same]
      simp [h_key]
  · next h_none =>
    rw [← Except.ok.inj h]
    refine (or_iff_left ?_).symm
    rintro ⟨value, rest, h_split, -⟩
    exact h_none _ value rest h_split

theorem maxSegLen_loginParams_eq_zero_iff {kvs : List Bytes} {p p' : LoginParams}
    (h : loginParams kvs p = .ok p') :
    p'.maxSegLen = 0 ↔ p.maxSegLen = 0 ∨ ∃ kv ∈ kvs, ZeroSegment kv := by
  induction kvs generalizing p with
  | nil =>
    obtain rfl := Except.ok.inj h
    simp
  | cons kv kvs ih =>
    rw [loginParams] at h
    cases h_param : loginParam p kv with
    | error f =>
      rw [h_param] at h
      cases h
    | ok p₁ =>
      rw [h_param] at h
      rw [ih h, maxSegLen_loginParam_eq_zero_iff h_param]
      simp [or_assoc]

/-- The login sets the segment length to zero. -/
def ZeroLogin (data : Bytes) : Prop := ∃ kv ∈ dataToTextArray data, ZeroSegment kv

/-- **The segment length after some logins.** A length of zero is never given up
again, since a login can only make it smaller. -/
theorem maxSegLen_logins_eq_zero_iff {datas : List Bytes} {ses ses' : Session}
    (h : Machine.run loginSetData ses datas = .ok ses') :
    ses'.maxSegLen = 0 ↔ ses.maxSegLen = 0 ∨ ∃ data ∈ datas, ZeroLogin data := by
  induction datas generalizing ses with
  | nil =>
    obtain rfl := Except.ok.inj h
    simp
  | cons data datas ih =>
    obtain ⟨ses₁, h_login, h_rest⟩ := Machine.run_cons_eq_ok.mp h
    have h_one : ses₁.maxSegLen = 0 ↔ ses.maxSegLen = 0 ∨ ZeroLogin data := by
      unfold loginSetData at h_login
      cases h_params : loginParams (dataToTextArray data)
          { maxBurst := 0xffffffff, maxSegLen := ses.maxSegLen, ses := ses } with
      | error f =>
        rw [h_params] at h_login
        cases h_login
      | ok p =>
        rw [h_params] at h_login
        rw [← Except.ok.inj h_login]
        exact maxSegLen_loginParams_eq_zero_iff h_params
    rw [ih h_rest, h_one]
    simp [or_assoc]

end IscsiTarget
