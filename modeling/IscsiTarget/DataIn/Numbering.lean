import IscsiTarget.DataIn.Emitted

/-!
# DataSN

The session has one counter for DataSNs, and the tag it was last used for. The counter goes back
to zero when another tag comes, and only then: a command that gets Data-Ins under the tag of the
last one that did is counted on from there (`FreshTag`). `dataSN_iff` is about runs.
-/

namespace IscsiTarget

variable {β : Type} {T : Target β} {fuel : ℕ} {c c' : Conn β} {q : Pdu}

/-! ### Numbers that count up -/

theorem CountsFrom.of_append {n : UInt32} {ms ks : List UInt32} (h : CountsFrom n (ms ++ ks)) :
    CountsFrom n ms := by
  induction ms generalizing n with
  | nil => trivial
  | cons m ms ih => exact ⟨h.1, ih h.2⟩

/-- Where numbers begin is determined, unless there are none. -/
theorem CountsFrom.eq_or_nil {n k : UInt32} {ms : List UInt32} (h : CountsFrom n ms) :
    CountsFrom k ms ↔ ms = [] ∨ n = k := by
  cases ms with
  | nil => exact iff_of_true trivial (.inl rfl)
  | cons m ms =>
    rw [or_iff_right (List.cons_ne_nil m ms)]
    constructor
    · intro h'
      exact h.1.symm.trans h'.1
    · rintro rfl
      exact h

/-! ### One step -/

/-- The Data-Ins count up from the number the session has for the tag. Both
encoders ask the session for each of theirs. -/
theorem EmitsDataIns.counts {ds : List DataInPdu} (h : EmitsDataIns T fuel c q ds) :
    CountsFrom (c.ses.getIncDatasn q.bhs.getItasktag).1 (ds.map DataInPdu.dataSN) := by
  cases h with
  | none => trivial
  | inline h_sends h_stream h_ne h_prefix =>
    obtain ⟨rest, h_rest⟩ := h_prefix
    obtain ⟨-, h_counts, -⟩ := dataInGet_fills (T := T) q.bhs _ c.ses
    rw [← h_rest, List.map_append] at h_counts
    exact h_counts.of_append
  | streamed h_sends h_stream h_ne h_loop h_ds =>
    obtain ⟨es, h_es, h_counts⟩ := streamLoop_counts h_loop
    rw [List.map_injective_iff.mpr (fun _ _ h => PduOut.dataIn.inj h) (h_ds.unique h_es)]
    exact h_counts

theorem getIncDatasn_eq_zero_iff (ses : Session) (itt : UInt32) :
    (ses.getIncDatasn itt).1 = 0 ↔ itt ≠ ses.dataSnItt ∨ ses.dataSn = 0 := by
  unfold Session.getIncDatasn
  by_cases h : itt = ses.dataSnItt <;> simp [h]

variable (T fuel) in
/-- The Data-Ins that are sent for the PDU have the DataSNs 0, 1, 2, and so on. -/
def NumberedFromZero (c : Conn β) (q : Pdu) : Prop :=
  ∀ c' ds, serve T fuel c q = .ok c' → c.scsi.SendsDataIns c'.scsi ds →
    CountsFrom 0 (ds.map DataInPdu.dataSN)

variable (T) in
/-- If Data-Ins are sent, the last ones before had another tag, or there were
none. -/
def FreshTag (c : Conn β) (q : Pdu) : Prop :=
  SendsData T c q → q.bhs.getItasktag ≠ c.ses.dataSnItt ∨ c.ses.dataSn = 0

/-- **One step.** The Data-Ins count from zero exactly when the session has not
seen their tag last. -/
theorem numberedFromZero_iff (h : serve T fuel c q = .ok c') :
    NumberedFromZero T fuel c q ↔ FreshTag T c q := by
  obtain ⟨ds, h_ds, h_emits⟩ := serve_dataIns h
  have h_reduce : NumberedFromZero T fuel c q ↔ CountsFrom 0 (ds.map DataInPdu.dataSN) := by
    constructor
    · intro h_all
      exact h_all c' ds h h_ds
    · intro h_counts c₁ es h_c₁ h_es
      obtain rfl := Except.ok.inj (h.symm.trans h_c₁)
      rw [h_es.unique h_ds]
      exact h_counts
  rw [h_reduce, h_emits.counts.eq_or_nil, List.map_eq_nil_iff, getIncDatasn_eq_zero_iff, FreshTag,
    ← h_emits.ne_nil_iff]
  tauto

/-! ### Every run -/

/-- **DataSN starts at zero for every command** of a run exactly when no command
gets its Data-Ins under the tag of the last one that got some. An initiator may
use a tag again once its command is done, and nothing tells the counter that it
is. -/
theorem dataSN_iff {qs : List Pdu} (h_run : Machine.run (serve T fuel) c qs = .ok c') :
    Machine.Along (serve T fuel) (NumberedFromZero T fuel) c qs ↔
      Machine.Along (serve T fuel) (FreshTag T) c qs :=
  Machine.along_congr_of_run (fun _ _ _ h => numberedFromZero_iff h) h_run

/-- A READ CAPACITY(10) under the tag `tag`. -/
def Sample.capacity (tag : UInt8) : Pdu := command tag 8 (cdb10 0x25 0 0 0) [] Pdu.nil_lt

/-- One after the other under different tags: both times the numbers begin at
zero. -/
theorem dataSN_capacity :
    Machine.Along (serve (Sample.target 8) 0) (NumberedFromZero (Sample.target 8) 0)
      (Sample.conn 8 []) [Sample.capacity 5, Sample.capacity 6] := by
  obtain ⟨c', h_run, -⟩ := Machine.exists_ok_of_any (P := fun _ => True)
    (r := Machine.run (serve (Sample.target 8) 0) (Sample.conn 8 [])
      [Sample.capacity 5, Sample.capacity 6]) (by decide +kernel)
  refine (dataSN_iff h_run).mpr ⟨fun _ => .inl (by decide), fun c₁ h_c₁ => ⟨fun _ => .inl ?_,
    fun _ _ => trivial⟩⟩
  obtain ⟨c₂, h_c₂, h_itt⟩ := Machine.exists_ok_of_any
    (P := fun c => c.ses.dataSnItt ≠ (Sample.capacity 6).bhs.getItasktag)
    (r := serve (Sample.target 8) 0 (Sample.conn 8 []) (Sample.capacity 5)) (by decide +kernel)
  obtain rfl := Except.ok.inj (h_c₂.symm.trans h_c₁)
  exact h_itt.symm

/-- One after the other under the same tag: the second Data-In has DataSN 1. The
session counts on as long as the tag is the one it has seen last. -/
theorem dataSN_fails :
    ∃ c₁ c₂ ds, serve (Sample.target 8) 0 (Sample.conn 8 []) (Sample.capacity 5) = .ok c₁ ∧
      serve (Sample.target 8) 0 c₁ (Sample.capacity 5) = .ok c₂ ∧
      c₁.scsi.SendsDataIns c₂.scsi ds ∧ ds.map DataInPdu.dataSN = [1] ∧
      ¬ Machine.Along (serve (Sample.target 8) 0) (NumberedFromZero (Sample.target 8) 0)
        (Sample.conn 8 []) [Sample.capacity 5, Sample.capacity 5] := by
  -- the numbers of the first, and of both together
  obtain ⟨c₁, h_c₁, h_first⟩ := Machine.exists_ok_of_any
    (P := fun c => (dataInPdus (sentPdus c.scsi.history)).map DataInPdu.dataSN = [0])
    (r := serve (Sample.target 8) 0 (Sample.conn 8 []) (Sample.capacity 5)) (by decide +kernel)
  obtain ⟨c₂, h_run, h_both⟩ := Machine.exists_ok_of_any
    (P := fun c => (dataInPdus (sentPdus c.scsi.history)).map DataInPdu.dataSN = [0, 1])
    (r := Machine.run (serve (Sample.target 8) 0) (Sample.conn 8 [])
      [Sample.capacity 5, Sample.capacity 5]) (by decide +kernel)
  obtain ⟨c, h_c, h_rest⟩ := Machine.run_cons_eq_ok.mp h_run
  obtain rfl := Except.ok.inj (h_c₁.symm.trans h_c)
  obtain ⟨c, h_c₂, h_nil⟩ := Machine.run_cons_eq_ok.mp h_rest
  obtain rfl : c = c₂ := Except.ok.inj h_nil
  have h_all (c : Conn Ram) : (Sample.conn 8 []).scsi.SendsDataIns c.scsi
      (dataInPdus (sentPdus c.scsi.history)) := ⟨_, ⟨c.scsi.history, rfl, rfl⟩, rfl⟩
  obtain ⟨ds, h_ds, -⟩ := serve_dataIns h_c₂
  have h_second : ds.map DataInPdu.dataSN = [1] := by
    have h_eq := ((h_all c₁).trans h_ds).unique (h_all c)
    rw [← h_eq, List.map_append, h_first] at h_both
    exact @List.append_cancel_left _ [0] _ _ h_both
  refine ⟨c₁, c, ds, h_c₁, h_c₂, h_ds, h_second, fun h_along => ?_⟩
  have h_counts := (h_along.2 c₁ h_c₁).1 c ds h_c₂ h_ds
  rw [h_second] at h_counts
  exact absurd h_counts.1 (by decide)

end IscsiTarget
