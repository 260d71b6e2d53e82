import IscsiTarget.Receive.Serving

/-!
# What a connection has negotiated

`set_data` of a login goes through its text parameters and writes into the session as it goes. Over
a whole connection this comes to something simple (`Negotiated`): a digest is on when the last value
that was offered for it lists CRC32C, and the segment length is the least of all the numbers that
were named, and of what it was before. Nothing but a login changes any of it
(`Handler.negotiated_run`).
-/

namespace IscsiTarget

/-! ### What is offered -/

/-- The value of a text parameter, if it is one for this key. -/
def valueOf (key kv : Bytes) : Option Bytes :=
  match split kv (ascii "=") with
  | k :: value :: _ => if k = key then some value else none
  | _ => none

/-- The values for a key, in their order. -/
def valuesOf (key : Bytes) (kvs : List Bytes) : List Bytes := kvs.filterMap (valueOf key)

/-- The text parameters of a login. -/
def Pdu.loginText (q : Pdu) : List Bytes :=
  if q.bhs.getOpcode = .loginReq then dataToTextArray q.data else []

/-- The number a value stands for. The least of it and others is of interest, so
a value that is none counts as the greatest number. -/
def numberOf (value : Bytes) : UInt32 :=
  match stoi value with
  | .ok i => intToUint32 i
  | .error _ => 0xffffffff

/-- The digest setting after the values that were offered for it. -/
def digestAfter (values : List Bytes) (old : Bool) : Bool :=
  (values.getLast?.map hasCRC32C).getD old

/-- What the text parameters make of the settings. For a digest the last of its
values decides, and of the segment lengths the smallest one counts. -/
structure Negotiated (st : Settings) (kvs : List Bytes) (st' : Settings) : Prop where
  headerDigest :
    st'.headerDigest = digestAfter (valuesOf (ascii "HeaderDigest") kvs) st.headerDigest
  dataDigest : st'.dataDigest = digestAfter (valuesOf (ascii "DataDigest") kvs) st.dataDigest
  maxSegLen : st'.maxSegLen =
    ((valuesOf (ascii "MaxRecvDataSegmentLength") kvs).map numberOf).foldl min st.maxSegLen
  allowDigest : st'.allowDigest = st.allowDigest

namespace Negotiated

variable {st st₁ st₂ : Settings} {kvs kvs' : List Bytes}

theorem refl (st : Settings) : Negotiated st [] st := ⟨rfl, rfl, rfl, rfl⟩

theorem valuesOf_append (key : Bytes) (kvs kvs' : List Bytes) :
    valuesOf key (kvs ++ kvs') = valuesOf key kvs ++ valuesOf key kvs' := List.filterMap_append

/-- The last value counts, wherever it stands. -/
theorem digestAfter_append (values values' : List Bytes) (old : Bool) :
    digestAfter (values ++ values') old = digestAfter values' (digestAfter values old) := by
  unfold digestAfter
  rw [List.getLast?_append]
  cases values'.getLast? <;> rfl

theorem trans (h₁ : Negotiated st kvs st₁) (h₂ : Negotiated st₁ kvs' st₂) :
    Negotiated st (kvs ++ kvs') st₂ where
  headerDigest := by
    rw [h₂.headerDigest, h₁.headerDigest, valuesOf_append, digestAfter_append]
  dataDigest := by rw [h₂.dataDigest, h₁.dataDigest, valuesOf_append, digestAfter_append]
  maxSegLen := by
    rw [h₂.maxSegLen, h₁.maxSegLen, valuesOf_append, List.map_append, List.foldl_append]
  allowDigest := h₂.allowDigest.trans h₁.allowDigest

/-- Parameters for other keys. -/
theorem of_other (h_header : valuesOf (ascii "HeaderDigest") kvs = [])
    (h_data : valuesOf (ascii "DataDigest") kvs = [])
    (h_length : valuesOf (ascii "MaxRecvDataSegmentLength") kvs = []) : Negotiated st kvs st where
  headerDigest := by rw [h_header]; rfl
  dataDigest := by rw [h_data]; rfl
  maxSegLen := by rw [h_length]; rfl
  allowDigest := rfl

end Negotiated

/-! ### One login -/

/-- The settings while the parameters of a login are gone through. -/
def LoginParams.settings (p : LoginParams) : Settings :=
  { p.ses.settings with maxSegLen := p.maxSegLen }

/-- What a parameter is the value of. -/
theorem valuesOf_of_split {key value : Bytes} {rest : List Bytes} {kv : Bytes}
    (h : split kv (ascii "=") = key :: value :: rest) (k : Bytes) :
    valuesOf k [kv] = if key = k then [value] else [] := by
  have h_value : valueOf k kv = if key = k then some value else none := by
    unfold valueOf
    rw [h]
  unfold valuesOf
  rw [List.filterMap_cons, List.filterMap_nil, h_value]
  by_cases h_key : key = k
  · rw [if_pos h_key, if_pos h_key]
  · rw [if_neg h_key, if_neg h_key]

theorem minStoi_eq_ok {v w : UInt32} {value : Bytes} (h : minStoi v value = .ok w) :
    w = min v (numberOf value) := by
  unfold minStoi at h
  unfold numberOf
  cases h_stoi : stoi value with
  | error f =>
    rw [h_stoi] at h
    cases h
  | ok i =>
    rw [h_stoi] at h
    exact (Except.ok.inj h).symm

/-- **One parameter.** The keys are gone through in the order in which the code
tests them; most have no effect on the settings. -/
theorem negotiated_loginParam {p p' : LoginParams} {kv : Bytes} (h : loginParam p kv = .ok p') :
    Negotiated p.settings [kv] p'.settings ∧ p'.ses.r2tSessions = p.ses.r2tSessions := by
  unfold loginParam at h
  split at h
  swap
  · next h_split =>
    obtain rfl := Except.ok.inj h
    have h_none (k : Bytes) : valuesOf k [kv] = [] := by
      unfold valuesOf
      rw [List.filterMap_cons, List.filterMap_nil, valueOf]
      split
      · rfl
      · next h_some =>
        split at h_some
        · next h_eq => exact absurd h_eq (h_split _ _ _)
        · cases h_some
    exact ⟨.of_other (h_none _) (h_none _) (h_none _), rfl⟩
  next key value rest h_split =>
  have h_values := valuesOf_of_split h_split
  -- the value counts for its own key only
  have h_own {k : Bytes} (h_key : key = k) : valuesOf k [kv] = [value] := by
    rw [h_values, if_pos h_key]
  have h_other {k : Bytes} (h_key : key ≠ k) : valuesOf k [kv] = [] := by
    rw [h_values, if_neg h_key]
  have h_burst {k : Bytes} (h_key : key = k) (h_h : k ≠ ascii "HeaderDigest")
      (h_d : k ≠ ascii "DataDigest") (h_m : k ≠ ascii "MaxRecvDataSegmentLength")
      (h_min : (minStoi p.maxBurst value).map (fun v => { p with maxBurst := v }) = .ok p') :
      Negotiated p.settings [kv] p'.settings ∧ p'.ses.r2tSessions = p.ses.r2tSessions := by
    cases h_v : minStoi p.maxBurst value with
    | error f =>
      rw [h_v] at h_min
      cases h_min
    | ok v =>
      rw [h_v] at h_min
      obtain rfl := Except.ok.inj h_min
      subst h_key
      exact ⟨.of_other (h_other h_h) (h_other h_d) (h_other h_m), rfl⟩
  split at h
  · next h_key => exact h_burst h_key (by decide) (by decide) (by decide) h
  split at h
  · next h_key => exact h_burst h_key (by decide) (by decide) (by decide) h
  split at h
  · next h_key =>
    cases h_v : minStoi p.maxSegLen value with
    | error f =>
      rw [h_v] at h
      cases h
    | ok v =>
      rw [h_v] at h
      obtain rfl := Except.ok.inj h
      have h_h : key ≠ ascii "HeaderDigest" := by rw [h_key]; decide
      have h_d : key ≠ ascii "DataDigest" := by rw [h_key]; decide
      refine ⟨⟨?_, ?_, ?_, rfl⟩, rfl⟩
      · rw [h_other h_h]
        rfl
      · rw [h_other h_d]
        rfl
      · rw [h_own h_key]
        exact minStoi_eq_ok h_v
  next h_m =>
  split at h
  · next h_key =>
    obtain rfl := Except.ok.inj h
    have h_d : key ≠ ascii "DataDigest" := by rw [h_key]; decide
    refine ⟨⟨?_, ?_, ?_, rfl⟩, rfl⟩
    · rw [h_own h_key]
      rfl
    · rw [h_other h_d]
      rfl
    · rw [h_other h_m]
      rfl
  next h_h =>
  split at h
  · next h_key =>
    obtain rfl := Except.ok.inj h
    refine ⟨⟨?_, ?_, ?_, rfl⟩, rfl⟩
    · rw [h_other h_h]
      rfl
    · rw [h_own h_key]
      rfl
    · rw [h_other h_m]
      rfl
  · next h_d =>
    obtain rfl := Except.ok.inj h
    exact ⟨.of_other (h_other h_h) (h_other h_d) (h_other h_m), rfl⟩

/-- All the parameters. By induction on them, each one going on from the
settings that the last one has left. -/
theorem negotiated_loginParams {kvs : List Bytes} {p p' : LoginParams}
    (h : loginParams kvs p = .ok p') :
    Negotiated p.settings kvs p'.settings ∧ p'.ses.r2tSessions = p.ses.r2tSessions := by
  induction kvs generalizing p with
  | nil =>
    obtain rfl := Except.ok.inj h
    exact ⟨.refl _, rfl⟩
  | cons kv kvs ih =>
    rw [loginParams] at h
    cases h_one : loginParam p kv with
    | error f =>
      rw [h_one] at h
      cases h
    | ok p₁ =>
      rw [h_one] at h
      -- the parameters add up: what the first has done, and what the rest does with that
      obtain ⟨h_first, h_table⟩ := negotiated_loginParam h_one
      obtain ⟨h_rest, h_table'⟩ := ih h
      exact ⟨h_first.trans h_rest, h_table'.trans h_table⟩

/-- **`set_data`.** The digests are set while the parameters are gone through;
the segment length and the acknowledge interval are written to the session at
the end. -/
theorem negotiated_negotiate {q : Pdu} {ses ses' : Session} (h : q.negotiate ses = .ok ses') :
    Negotiated ses.settings q.loginText ses'.settings ∧ ses'.r2tSessions = ses.r2tSessions := by
  unfold Pdu.negotiate at h
  unfold Pdu.loginText
  split at h
  · -- a login with data: what is kept of its parameters is what the loop has left
    next h_login =>
    rw [if_pos h_login.1]
    unfold loginSetData at h
    split at h
    · cases h
    · next p h_params =>
      obtain rfl := Except.ok.inj h
      obtain ⟨h_neg, h_table⟩ := negotiated_loginParams h_params
      exact ⟨⟨h_neg.headerDigest, h_neg.dataDigest, h_neg.maxSegLen, h_neg.allowDigest⟩, h_table⟩
  · next h_not =>
    obtain rfl := Except.ok.inj h
    by_cases h_op : q.bhs.getOpcode = .loginReq
    · -- a login without data
      have h_empty : q.data = [] := not_not.mp fun h_data => h_not ⟨h_op, h_data⟩
      rw [if_pos h_op, h_empty]
      exact ⟨.refl _, rfl⟩
    · rw [if_neg h_op]
      exact ⟨.refl _, rfl⟩

/-! ### A connection -/

section

variable {β : Type} {T : Target β} {fuel : ℕ}

/-- **A turn of the handler** negotiates what the PDU offers. -/
theorem Served.negotiated_serve {s s' : Served β} {q : Pdu} (h : s.serve T fuel q = .ok s') :
    Negotiated s.conn.ses.settings q.loginText s'.conn.ses.settings := by
  obtain ⟨ses, r, reply, h_neg, h_push, h_reply, rfl⟩ := Served.exists_of_serve h
  have h_pushed : r.2.ses.settings = ses.settings := by
    unfold pushReceived at h_push
    split at h_push
    · exact settings_pushResponse h_push
    · obtain rfl := Except.ok.inj h_push
      rfl
  rw [Served.conn_after, settings_replyToFailure h_reply, h_pushed]
  exact (negotiated_negotiate h_neg).1

/-- What a run of the handler over PDUs negotiates. -/
theorem Served.negotiated_of_run {qs : List Pdu} {s s' : Served β}
    (h : Machine.run (Served.serve T fuel) s qs = .ok s') :
    Negotiated s.conn.ses.settings (qs.flatMap Pdu.loginText) s'.conn.ses.settings := by
  induction qs generalizing s with
  | nil =>
    obtain rfl := Except.ok.inj h
    exact .refl _
  | cons q qs ih =>
    obtain ⟨m, h_step, h_rest⟩ := Machine.run_cons_eq_ok.mp h
    rw [List.flatMap_cons]
    exact (Served.negotiated_serve h_step).trans (ih h_rest)

/-- **What a connection negotiates.** The settings of the session come from the
logins that have been served: the digests from the last offer, the segment
length from the least. -/
theorem Handler.negotiated_run {h h' : Handler β} {qs : List Pdu}
    (h_carried : Carried T fuel h.link h.served qs)
    (h_run : Machine.run (Handler.step T fuel) h (qs.map fun _ => ()) = .ok h') :
    ∃ n ≤ qs.length, (h'.ok = true → n = qs.length) ∧
      Negotiated h.conn.ses.settings ((qs.take n).flatMap Pdu.loginText) h'.conn.ses.settings := by
  obtain ⟨n, hn, h_first, h_all⟩ := Handler.exists_run_serve h_carried h_run
  exact ⟨n, hn, h_all, Served.negotiated_of_run h_first⟩

end

theorem Handler.negotiated_digestRequest :
    ∃ h', Machine.run (Handler.step (Sample.target 8) 99) (Sample.handler Sample.digestStream)
        ([Sample.digestRequest, pingRequest].map fun _ => ()) = .ok h' ∧
      ∃ n ≤ 2, (h'.ok = true → n = 2) ∧
        Negotiated (newSession (Sample.target 8)).settings
          (([Sample.digestRequest, pingRequest].take n).flatMap Pdu.loginText)
          h'.conn.ses.settings := by
  have h_eval : (Machine.run (Handler.step (Sample.target 8) 99)
      (Sample.handler Sample.digestStream)
      ([Sample.digestRequest, pingRequest].map fun _ => ())).toOption.any
      (fun h => decide (h.ok = true)) = true := by
    decide +kernel
  obtain ⟨h', h_run, -⟩ := Machine.exists_ok_of_any h_eval
  exact ⟨h', h_run, Handler.negotiated_run Sample.carried_digestStream h_run⟩

end IscsiTarget
