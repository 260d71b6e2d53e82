import IscsiTarget.Snmp.Register
import IscsiTarget.Split

/-!
# The tree of a set of OIDs

`OidSet` is what is registered, one after the other: OIDs none of which is the beginning of
another. Its tree stores them all (`OidSet.stores_tree`), `find_by_oid` finds each of them and
nothing else but what is on the way to one, and the children of every node come in the order
of their arcs. The order of the registrations shows at the top level only:
`registration_iff`.
-/

namespace IscsiTarget

open SnmpDataType SnmpData Forest

/-- OIDs and what they are registered for, in the order of the registrations.
None is a beginning of another, and every arc fits in the `int` it is kept in. -/
structure OidSet where
  oids : List (List ℕ × SnmpKind)
  ne_nil : ∀ r ∈ oids, r.1 ≠ []
  fit : ArcsFit oids
  apart : oids.Pairwise fun r r' => Apart r.1 r'.1

namespace OidSet

/-- The registrations. -/
def tree (S : OidSet) : SnmpData :=
  S.oids.foldl (fun sd r => sd.registerOid (dotted r.1) r.2) {}

/-- One OID more: its first arc, unless there was one with it already. -/
def noteFirst (as : List ℕ) (r : List ℕ × SnmpKind) : List ℕ :=
  if r.1.headD 0 ∈ as then as else as ++ [r.1.headD 0]

/-- The first arcs of the OIDs, in the order they come up in. -/
def firstArcs (S : OidSet) : List ℕ := S.oids.foldl noteFirst []

end OidSet

variable {path : List ℕ} {lut : List SnmpDataType} {es : List (List ℕ × SnmpKind)}

/-! ### The top level -/

/-- At the top level a new node comes last. -/
theorem insertNode_top {e : SnmpDataType} (h_e : e.getOidIdx = 0)
    (h : ∀ n ∈ lut, n.getOidIdx = 0) : insertNode e lut = lut ++ [e] := by
  induction lut with
  | nil => rfl
  | cons n lut ih =>
    rw [insertNode, h_e, h n List.mem_cons_self, if_neg (lt_irrefl _),
      ih fun m hm => h m (List.mem_cons_of_mem n hm)]
    rfl

/-- All nodes at the top level have index 0, because there is no dot in their
OIDs. So none of them is put in front of another. -/
theorem Stores.getOidIdx_top (h : Stores [] lut es) (h_fit : ArcsFit es) :
    ∀ n ∈ lut, n.getOidIdx = 0 := by
  generalize h_path : ([] : List ℕ) = path at h
  induction h with
  | nil => exact fun n hn => absurd hn List.not_mem_nil
  | @cons path a kind children lut cs es _ _ _ _ _ ih =>
    subst h_path
    intro n hn
    rcases List.mem_cons.mp hn with rfl | hn
    · obtain ⟨e, own, h_own⟩ := List.exists_cons_of_ne_nil (entries_ne_nil a kind cs)
      have h_e : e ∈ entries a kind cs := h_own ▸ List.mem_cons_self
      obtain ⟨q, h_q⟩ := List.head?_eq_some_iff.mp (head?_of_mem_entries h_e)
      -- the arc is one of a registered OID, so it fits
      have ha : a < 2 ^ 31 := by
        refine h_fit e (List.mem_append_left _ h_e) a ?_
        rw [h_q]
        exact List.mem_cons_self
      rw [getOidIdx_nodeAt ha, if_pos rfl]
    · exact ih (fun e he => h_fit e (List.mem_append_right _ he)) rfl n hn

/-- What one registration does to the top level. A first arc that is not there
yet gets a node behind the others, whatever its number is. -/
theorem registerLoop_tops {e : SnmpKind} {a : ℕ} {arcs : List ℕ} (h : Stores [] lut es)
    (h_fit : ArcsFit es) (ha : a < 2 ^ 31) :
    (registerLoop e ((a :: arcs).map unsignedText) [] lut).map getOid =
      if dotted [a] ∈ lut.map getOid then lut.map getOid else lut.map getOid ++ [dotted [a]] := by
  have h_cur : curOid [] (unsignedText a) = dotted [a] := curOid_dotted [] a
  rw [List.map_cons, registerLoop, h_cur]
  dsimp only
  -- a first arc that is new gets a node at the end of the top level; else nothing changes there
  cases h_find : findOidInVector lut (dotted [a]) with
  | none =>
    have h_no : dotted [a] ∉ lut.map getOid := by
      rintro h_mem
      obtain ⟨n, hn, h_n⟩ := List.mem_map.mp h_mem
      have h_false := List.findIdx?_eq_none_iff.mp h_find n hn
      rw [h_n, beq_self_eq_true] at h_false
      cases h_false
    dsimp only
    rw [if_neg h_no, insertNode_top ?_ (h.getOidIdx_top h_fit), List.map_append]
    · rfl
    · exact @treeIdx_dotted [] a ha
  | some i =>
    obtain ⟨h_lt, h_eq, -⟩ := List.findIdx?_eq_some_iff_getElem.mp h_find
    have h_yes : dotted [a] ∈ lut.map getOid := by
      rw [← eq_of_beq h_eq]
      exact List.mem_map_of_mem (List.getElem_mem h_lt)
    dsimp only
    rw [if_pos h_yes, modify_eq_set_of_getElem? (List.getElem?_eq_getElem h_lt), List.map_set]
    have h_same : ∀ (n : SnmpDataType) children, (n.setChildren children).getOid = n.getOid := by
      intro n children
      cases n
      rfl
    have h_lt' : i < (lut.map getOid).length := by
      rw [List.length_map]
      exact h_lt
    have h_oid : lut[i].getOid = (lut.map getOid)[i] := (List.getElem_map getOid).symm
    rw [h_same, h_oid]
    exact List.set_getElem_self h_lt'

/-! ### All registrations -/

/-- One registration after the other. By induction on the registrations, with
the OIDs that are stored and the first arcs that have come up so far. -/
theorem foldl_registerOid {rs : List (List ℕ × SnmpKind)} (sd : SnmpData) (as : List ℕ)
    (h : Stores [] sd.data es) (h_fit : ArcsFit es)
    (h_tops : sd.data.map getOid = as.map fun a => dotted [a])
    (h_ne : ∀ r ∈ rs, r.1 ≠ []) (h_fit' : ArcsFit rs)
    (h_apart : rs.Pairwise fun r r' => Apart r.1 r'.1)
    (h_apart' : ∀ r ∈ rs, ∀ x ∈ es, Apart r.1 x.1) :
    ∃ es', Stores [] (rs.foldl (fun sd r => sd.registerOid (dotted r.1) r.2) sd).data es' ∧
      es'.Perm (rs ++ es) ∧
      (rs.foldl (fun sd r => sd.registerOid (dotted r.1) r.2) sd).data.map getOid =
        (rs.foldl OidSet.noteFirst as).map fun a => dotted [a] := by
  -- induction on the registrations; none is a prefix of another, so none goes into a leaf
  induction rs generalizing sd es as with
  | nil => exact ⟨es, h, .refl _, h_tops⟩
  | cons r rs ih =>
    obtain ⟨h_r, h_rs⟩ := List.pairwise_cons.mp h_apart
    obtain ⟨a, arcs, h_arcs⟩ := List.exists_cons_of_ne_nil (h_ne r List.mem_cons_self)
    have h_r_fit := h_fit' r List.mem_cons_self
    obtain ⟨es₁, h_es₁, h_perm⟩ :=
      registerLoop_stores (e := r.2) (h_ne r List.mem_cons_self) h h_fit
      h_r_fit (h_apart' r List.mem_cons_self)
    have h_data : (sd.registerOid (dotted r.1) r.2).data =
        registerLoop r.2 (r.1.map unsignedText) (dotted []) sd.data := by
      rw [registerOid, split_dotted (h_ne r List.mem_cons_self)]
      rfl
    rw [← h_data] at h_es₁
    have h_fit₁ : ArcsFit es₁ := by
      intro x hx
      rcases List.mem_cons.mp (h_perm.subset hx) with rfl | hx
      · exact h_r_fit
      · exact h_fit x hx
    -- the first arcs are noted in the order they come up
    have h_tops₁ : (sd.registerOid (dotted r.1) r.2).data.map getOid =
        (OidSet.noteFirst as r).map fun a => dotted [a] := by
      have ha : a < 2 ^ 31 := h_r_fit a (by rw [h_arcs]; exact List.mem_cons_self)
      have h_inj : Function.Injective fun a : ℕ => dotted [a] := unsignedText_injective
      have h_step : (registerLoop r.2 ((a :: arcs).map unsignedText) [] sd.data).map getOid = _ :=
        registerLoop_tops h h_fit ha
      rw [h_data, h_arcs]
      refine h_step.trans ?_
      have h_mem : dotted [a] ∈ as.map (fun a => dotted [a]) ↔ a ∈ as :=
        List.mem_map_of_injective h_inj
      have h_note : OidSet.noteFirst as r = if a ∈ as then as else as ++ [a] := by
        rw [OidSet.noteFirst, h_arcs]
        rfl
      rw [h_tops, h_note]
      by_cases h_a : a ∈ as
      · rw [if_pos (h_mem.mpr h_a), if_pos h_a]
      · rw [if_neg (mt h_mem.mp h_a), if_neg h_a, List.map_append]
        rfl
    obtain ⟨es', h_es', h_perm', h_tops'⟩ := ih _ _ h_es₁ h_fit₁ h_tops₁
      (fun x hx => h_ne x (List.mem_cons_of_mem r hx))
      (fun x hx => h_fit' x (List.mem_cons_of_mem r hx)) h_rs (fun x hx y hy => by
        rcases List.mem_cons.mp (h_perm.subset hy) with rfl | hy
        · exact (h_r x hx).symm
        · exact h_apart' x (List.mem_cons_of_mem r hx) y hy)
    refine ⟨es', h_es', h_perm'.trans ?_, h_tops'⟩
    exact (h_perm.append_left rs).trans List.perm_middle

namespace OidSet

variable (S : OidSet)

/-- **The tree of a set of OIDs** stores them all, and nothing else. -/
theorem stores_tree : ∃ es, Stores [] S.tree.data es ∧ es.Perm S.oids ∧
    S.tree.data.map getOid = S.firstArcs.map fun a => dotted [a] := by
  obtain ⟨es, h_es, h_perm, h_tops⟩ := foldl_registerOid {} [] (.nil [])
    (fun x hx => by cases hx) rfl S.ne_nil S.fit S.apart (fun _ _ x hx => by cases hx)
  rw [List.append_nil] at h_perm
  exact ⟨es, h_es, h_perm, h_tops⟩

variable {S}

/-- The paths of the forest and the order of the first arcs determine the tree.
Below the top the children are in order, so that nothing else is left open. -/
theorem tree_eq_iff {S' : OidSet} (h : S.oids.Perm S'.oids) :
    S.tree = S'.tree ↔ S.firstArcs = S'.firstArcs := by
  obtain ⟨es, h_es, h_perm, h_tops⟩ := S.stores_tree
  obtain ⟨es', h_es', h_perm', h_tops'⟩ := S'.stores_tree
  have h_inj : Function.Injective fun a : ℕ => dotted [a] := unsignedText_injective
  constructor
  · -- the top level has the first arcs in their order
    intro h_tree
    rw [h_tree, h_tops'] at h_tops
    exact (List.map_injective_iff.mpr h_inj h_tops).symm
  · intro h_first
    -- all other levels are sorted, so the same OIDs below the same arcs make the same tree
    have h_oids : S.tree.data.map getOid = S'.tree.data.map getOid := by
      rw [h_tops, h_tops', h_first]
    obtain rfl := Spans.eq_of_perm (fun _ _ _ => ArcBefore.ne)
      (fun p a b h_p h_ab => h_ab.lt (List.ne_nil_of_length_pos (Nat.zero_lt_of_lt h_p)))
      (fun a b _ _ _ _ h_ab => h_inj h_ab) h_es h_es' h_oids
      (h_perm.trans (h.trans h_perm'.symm))
    have h_data := h_es.unique (fun _ _ _ => ArcBefore.ne) h_es'
    exact congrArg SnmpData.mk h_data

end OidSet

/-! ### Finding -/

/-- A part of a text leads to a node, or nowhere. Nodes are compared by their
OIDs, as texts. -/
theorem Stores.find? (h : Stores path lut es) (part : Bytes) :
    (lut.find? (fun n => n.getOid == curOid (dotted path) part) = none ∧
      ∀ e ∈ es, ∀ a ∈ e.1.head?, unsignedText a ≠ part) ∨
    ∃ i a kind children cs pre post, unsignedText a = part ∧
      lut.find? (fun n => n.getOid == curOid (dotted path) part) =
        some (nodeAt (path ++ [a]) kind children) ∧
      At nodeAt .plain ArcBefore path lut es i a kind children cs pre post := by
  rw [List.find?_eq_bind_findIdx?_getElem?]
  rcases h.findIdx? (p := fun n => n.getOid == curOid (dotted path) part)
    (findOidInVector_key part) with
    ⟨h_none, h_no⟩ | ⟨i, a, kind, children, cs, pre, post, h_some, h_key, h_at⟩
  · exact .inl ⟨by rw [h_none]; rfl, h_no⟩
  · refine .inr ⟨i, a, kind, children, cs, pre, post, h_key, ?_, h_at⟩
    rw [h_some]
    exact h_at.node

/-- The OIDs that begin with the arc of a node are its own. -/
theorem mem_entries_of_at {i a : ℕ} {kind : SnmpKind} {children : List SnmpDataType}
    {cs pre post : List (List ℕ × SnmpKind)} {e : List ℕ × SnmpKind}
    (h : At nodeAt .plain ArcBefore path lut es i a kind children cs pre post) (he : e ∈ es)
    (h_head : e.1.head? = some a) : e ∈ entries a kind cs := by
  rw [h.own] at he
  rcases List.mem_append.mp he with he | he
  · rcases List.mem_append.mp he with he | he
    · exact absurd rfl (h.pre_before e he a h_head).ne
    · exact he
  · exact absurd rfl (h.post_before e he a h_head).ne

/-- An OID that is stored is found. By induction on the tree: at each level the
node with the right text is the first one that has it. -/
theorem findByLoop_of_mem {readings : SnmpReadings} {s : List ℕ} {k : SnmpKind}
    (h : Stores path lut es) (h_mem : (s, k) ∈ es) :
    findByLoop readings (s.map unsignedText) (dotted path) lut = some (k.getData readings) := by
  induction s generalizing path lut es with
  | nil => exact absurd rfl (h.ne_nil h_mem)
  | cons a s ih =>
    rw [List.map_cons, findByLoop]
    rcases h.find? (unsignedText a) with
      ⟨-, h_no⟩ | ⟨i, b, kind, children, cs, pre, post, h_b, h_find, h_at⟩
    · exact absurd rfl (h_no _ h_mem a rfl)
    · -- the node of this arc is there; the OID ends at it, or goes on below
      obtain rfl := unsignedText_injective h_b
      rw [h_find, curOid_dotted]
      dsimp only
      rcases mem_entries.mp (mem_entries_of_at h_at h_mem rfl) with ⟨-, h_leaf⟩ | ⟨c, hc, h_inner⟩
      · obtain ⟨h_s, rfl⟩ := Prod.mk.inj h_leaf
        rw [(List.cons.inj h_s).2, List.map_nil, if_pos rfl]
        rfl
      · obtain ⟨h_s, rfl⟩ := Prod.mk.inj h_inner
        obtain rfl := (List.cons.inj h_s).2
        have h_ne : c.1.map unsignedText ≠ [] := by
          rw [Ne, List.map_eq_nil_iff]
          exact h_at.below.ne_nil hc
        rw [if_neg h_ne]
        exact ih h_at.below hc

/-- What is not on the way to an OID that is stored is not found. By induction
on the tree, since every node is on such a way. -/
theorem findByLoop_of_forall {readings : SnmpReadings} {parts : List Bytes}
    (h : Stores path lut es)
    (h_no : ∀ e ∈ es, ∀ p, p ≠ [] → p <+: e.1 → parts ≠ p.map unsignedText) :
    findByLoop readings parts (dotted path) lut = none := by
  induction parts generalizing path lut es with
  | nil => rfl
  | cons part parts ih =>
    rw [findByLoop]
    rcases h.find? part with
      ⟨h_none, -⟩ | ⟨i, a, kind, children, cs, pre, post, rfl, h_find, h_at⟩
    · rw [h_none]
    · rw [h_find, curOid_dotted]
      dsimp only
      have h_own : ∀ x ∈ entries a kind cs, x ∈ es := by
        intro x hx
        rw [h_at.own]
        exact List.mem_append_left _ (List.mem_append_right _ hx)
      -- the path does not end here, as a node is on the way to some OID
      have h_parts : parts ≠ [] := by
        rintro rfl
        obtain ⟨e, own, h_e⟩ := List.exists_cons_of_ne_nil (entries_ne_nil a kind cs)
        have h_mem : e ∈ entries a kind cs := h_e ▸ List.mem_cons_self
        obtain ⟨q, h_q⟩ := List.head?_eq_some_iff.mp (head?_of_mem_entries h_mem)
        refine h_no e (h_own e h_mem) [a] (List.cons_ne_nil _ _) ?_ rfl
        rw [h_q]
        exact List.cons_prefix_cons.mpr ⟨rfl, List.nil_prefix⟩
      rw [if_neg h_parts]
      refine ih h_at.below fun c hc p hp h_prefix h_eq => ?_
      refine h_no _ (h_own _ (mem_entries.mpr (.inr ⟨c, hc, rfl⟩))) (a :: p)
        (List.cons_ne_nil _ _) (List.cons_prefix_cons.mpr ⟨rfl, h_prefix⟩) ?_
      rw [h_eq, List.map_cons]

/-! ### Children -/

/-- The children of a node come in the order of their arcs. -/
def ChildrenIncrease (n : SnmpDataType) : Prop :=
  ∃ (path : List ℕ) (arcs : List ℕ), n.getOid = dotted path ∧ arcs.Pairwise (· < ·) ∧
    n.getChildren.map getOid = arcs.map fun a => dotted (path ++ [a])

theorem Stores.arcs_increase (h : Stores path lut es) (h_path : path ≠ []) :
    ∃ arcs : List ℕ, arcs.Pairwise (· < ·) ∧ (∀ b ∈ arcs, ∃ e ∈ es, e.1.head? = some b) ∧
      lut.map getOid = arcs.map fun a => dotted (path ++ [a]) := by
  induction h with
  | nil => exact ⟨[], .nil, fun b hb => absurd hb List.not_mem_nil, rfl⟩
  | @cons path a kind children lut cs es _ _ h_before _ _ ih =>
    -- the siblings to the right have greater arcs
    obtain ⟨arcs, h_arcs, h_heads, h_lut⟩ := ih h_path
    refine ⟨a :: arcs, List.pairwise_cons.mpr ⟨fun b hb => ?_, h_arcs⟩, fun b hb => ?_, ?_⟩
    · obtain ⟨e, he, h_e⟩ := h_heads b hb
      exact (h_before e he b h_e).lt h_path
    · rcases List.mem_cons.mp hb with rfl | hb
      · obtain ⟨e, own, h_e⟩ := List.exists_cons_of_ne_nil (entries_ne_nil b kind cs)
        have h_mem : e ∈ entries b kind cs := h_e ▸ List.mem_cons_self
        exact ⟨e, List.mem_append_left _ h_mem, head?_of_mem_entries h_mem⟩
      · obtain ⟨e, he, h_e⟩ := h_heads b hb
        exact ⟨e, List.mem_append_right _ he, h_e⟩
    · rw [List.map_cons, List.map_cons, h_lut]
      rfl

/-- Every node of the tree is at its path, with the forest below it. By
induction on how the node is reached. -/
theorem Stores.of_inTree {n : SnmpDataType} (h_n : InTree n lut) (h : Stores path lut es) :
    ∃ p kind children cs, p ≠ [] ∧ n = nodeAt p kind children ∧ Stores p children cs := by
  -- a node of the level itself
  have h_root : ∀ {path : List ℕ} {lut : List SnmpDataType} {es : List (List ℕ × SnmpKind)}
      {m : SnmpDataType}, Stores path lut es → m ∈ lut →
      ∃ p kind children cs, p ≠ [] ∧ m = nodeAt p kind children ∧ Stores p children cs := by
    intro path lut es m h hm
    induction h with
    | nil => cases hm
    | @cons path a kind children lut cs es h_below _ _ _ _ ih =>
      rcases List.mem_cons.mp hm with rfl | hm
      · exact ⟨path ++ [a], kind, children, cs, by simp, rfl, h_below⟩
      · exact ih hm
  induction h_n generalizing path es with
  | root h_mem => exact h_root h h_mem
  | under h_m _ ih =>
    obtain ⟨p, kind, children, cs, -, rfl, h_below⟩ := h_root h h_m
    exact ih h_below

theorem Stores.childrenIncrease (h : Stores path lut es) {n : SnmpDataType} (h_n : InTree n lut) :
    ChildrenIncrease n := by
  obtain ⟨p, kind, children, cs, h_p, rfl, h_below⟩ := h.of_inTree h_n
  obtain ⟨arcs, h_arcs, -, h_children⟩ := h_below.arcs_increase h_p
  exact ⟨p, arcs, rfl, h_arcs, h_children⟩

/-! ### What registering comes to -/

/-- A text with the parts of an OID is its text. -/
theorem eq_dotted_of_split {q : Bytes} {o : List ℕ} (h_o : o ≠ [])
    (h : split q (ascii ".") = o.map unsignedText) : q = dotted o := by
  have h_sep : ascii "." ≠ [] := by decide
  rw [← intercalate_split h_sep q, h, ← split_dotted h_o, intercalate_split h_sep]

namespace OidSet

variable (S : OidSet) (readings : SnmpReadings)

theorem findByOid_of_mem {r : List ℕ × SnmpKind} (h_r : r ∈ S.oids) :
    S.tree.findByOid readings (dotted r.1) = some (r.2.getData readings) := by
  obtain ⟨es, h_es, h_perm, -⟩ := S.stores_tree
  rw [findByOid, split_dotted (S.ne_nil r h_r)]
  exact findByLoop_of_mem h_es (h_perm.symm.subset h_r)

theorem findByOid_of_forall {q : Bytes}
    (h_q : ∀ r ∈ S.oids, ∀ p, p ≠ [] → p <+: r.1 → q ≠ dotted p) :
    S.tree.findByOid readings q = none := by
  obtain ⟨es, h_es, h_perm, -⟩ := S.stores_tree
  refine findByLoop_of_forall h_es fun e he p hp h_prefix h_split => ?_
  exact h_q e (h_perm.subset he) p hp h_prefix (eq_dotted_of_split hp h_split)

/-- **The order of the registrations** does not matter, every node has its
children in the order of their arcs, and `find_by_oid` finds what was registered
and nothing else but what is on the way to it; all this exactly when the first
arcs come up in the same order. -/
theorem registration_iff (S S' : OidSet) (readings : SnmpReadings) (h : S.oids.Perm S'.oids) :
    (S.tree = S'.tree ∧ (∀ n, InTree n S.tree.data → ChildrenIncrease n) ∧
      (∀ r ∈ S.oids, S.tree.findByOid readings (dotted r.1) = some (r.2.getData readings)) ∧
      ∀ q, (∀ r ∈ S.oids, ∀ p, p ≠ [] → p <+: r.1 → q ≠ dotted p) →
        S.tree.findByOid readings q = none) ↔ S.firstArcs = S'.firstArcs := by
  rw [tree_eq_iff h]
  refine and_iff_left ⟨fun n h_n => ?_, fun r h_r => S.findByOid_of_mem readings h_r,
    fun q h_q => S.findByOid_of_forall readings h_q⟩
  obtain ⟨es, h_es, -, -⟩ := S.stores_tree
  exact h_es.childrenIncrease h_n

/-! ### One first arc -/

variable {S}

/-- OIDs that share their first arc have one node at the top. There the order of
registration cannot make a difference. -/
theorem firstArcs_of_forall {a : ℕ} (h_ne : S.oids ≠ []) (h : ∀ r ∈ S.oids, r.1.headD 0 = a) :
    S.firstArcs = [a] := by
  -- once the arc is noted, the same arc is not noted again
  have h_rest : ∀ rs : List (List ℕ × SnmpKind), (∀ r ∈ rs, r.1.headD 0 = a) →
      rs.foldl noteFirst [a] = [a] := by
    intro rs h_rs
    induction rs with
    | nil => rfl
    | cons r rs ih =>
      have h_note : noteFirst [a] r = [a] := by
        rw [noteFirst, h_rs r List.mem_cons_self, if_pos List.mem_cons_self]
      rw [List.foldl_cons, h_note]
      exact ih fun x hx => h_rs x (List.mem_cons_of_mem r hx)
  obtain ⟨r, rs, h_oids⟩ := List.exists_cons_of_ne_nil h_ne
  rw [h_oids] at h
  have h_note : noteFirst [] r = [a] := by
    rw [noteFirst, h r List.mem_cons_self, if_neg List.not_mem_nil]
    rfl
  rw [firstArcs, h_oids, List.foldl_cons, h_note]
  exact h_rest rs fun x hx => h x (List.mem_cons_of_mem r hx)

/-- The same OIDs, registered in another order. -/
def reorder (S : OidSet) (rs : List (List ℕ × SnmpKind)) (h : S.oids.Perm rs) : OidSet where
  oids := rs
  ne_nil r h_r := S.ne_nil r (h.symm.subset h_r)
  fit r h_r := S.fit r (h.symm.subset h_r)
  apart := h.pairwise S.apart fun h_apart => h_apart.symm

end OidSet

/-! ### What `init_snmp` registers -/

/-- The OIDs of `init_snmp`, in its order. The values they stand for are left to
`initRegistrations`. -/
def initArcs : List (List ℕ) :=
  [ [1, 3, 6, 1, 2, 1, 1, 1, 0], [1, 3, 6, 1, 2, 1, 1, 3, 0], [1, 3, 6, 1, 2, 1, 1, 4, 0],
    [1, 3, 6, 1, 2, 1, 1, 5, 0], [1, 3, 6, 1, 2, 1, 1, 6, 0], [1, 3, 6, 1, 2, 1, 1, 7, 0],
    [1, 3, 6, 1, 2, 1, 1, 8, 0], [1, 3, 6, 1, 2, 1, 142, 1, 1, 1, 1, 10],
    [1, 3, 6, 1, 2, 1, 142, 1, 1, 2, 1, 1], [1, 3, 6, 1, 2, 1, 142, 1, 1, 2, 1, 3],
    [1, 3, 6, 1, 2, 1, 142, 1, 6, 2, 1, 1], [1, 3, 6, 1, 2, 1, 142, 1, 6, 3, 1, 1],
    [1, 3, 6, 1, 2, 1, 142, 1, 10, 2, 1, 1], [1, 3, 6, 1, 2, 1, 142, 1, 10, 2, 1, 3],
    [1, 3, 6, 1, 2, 1, 142, 1, 10, 2, 1, 4], [1, 3, 6, 1, 4, 1, 2021, 11, 54],
    [1, 3, 6, 1, 4, 1, 2021, 13, 15, 1, 1, 2], [1, 3, 6, 1, 4, 1, 2021, 100, 1],
    [1, 3, 6, 1, 4, 1, 2021, 100, 3], [1, 3, 6, 1, 4, 1, 2021, 13, 15, 1, 1, 3],
    [1, 3, 6, 1, 4, 1, 2021, 13, 15, 1, 1, 4], [1, 3, 6, 1, 4, 1, 2021, 13, 15, 1, 1, 5],
    [1, 3, 6, 1, 4, 1, 2021, 13, 15, 1, 1, 6], [1, 3, 6, 1, 4, 1, 2021, 4, 11, 0],
    [1, 3, 6, 1, 4, 1, 2021, 9, 1, 9, 1], [1, 3, 6, 1, 4, 1, 2021, 11, 9, 0] ]

theorem initRegistrations_texts (date : BuildDate) :
    (initRegistrations date).map (fun r => ascii r.1) = initArcs.map dotted := by
  have h_texts : (initRegistrations date).map (fun r => ascii r.1) =
      (initRegistrations ⟨ascii "Jan  1 2026", rfl⟩).map fun r => ascii r.1 := rfl
  rw [h_texts]
  decide +kernel

/-- What `init_snmp` registers is a set of OIDs. -/
def initOids (date : BuildDate) : OidSet where
  oids := initArcs.zip ((initRegistrations date).map Prod.snd)
  ne_nil r h_r := by
    have h_arcs : ∀ o ∈ initArcs, o ≠ [] := by decide +kernel
    exact h_arcs r.1 (List.of_mem_zip h_r).1
  fit r h_r := by
    have h_arcs : ∀ o ∈ initArcs, ∀ a ∈ o, a < 2 ^ 31 := by decide +kernel
    exact h_arcs r.1 (List.of_mem_zip h_r).1
  apart := by
    have h_arcs : initArcs.Pairwise Apart := by decide +kernel
    have h_len : initArcs.length ≤ ((initRegistrations date).map Prod.snd).length := le_rfl
    rw [← List.map_fst_zip h_len, List.pairwise_map] at h_arcs
    exact h_arcs

/-- The tree of `init_snmp` is theirs: it registers the same OIDs, in the same
order. -/
theorem tree_initOids (date : BuildDate) : (initOids date).tree = initSnmp date := by
  have h_tree : (initOids date).tree =
      ((initOids date).oids.map fun r => (dotted r.1, r.2)).foldl
        (fun sd r => sd.registerOid r.1 r.2) {} := by
    rw [List.foldl_map]
    rfl
  have h_init : initSnmp date = ((initRegistrations date).map fun r => (ascii r.1, r.2)).foldl
      (fun sd r => sd.registerOid r.1 r.2) {} := by
    rw [List.foldl_map]
    rfl
  have h_zip : ((initOids date).oids.map fun r => (dotted r.1, r.2)) =
      (initArcs.map dotted).zip ((initRegistrations date).map Prod.snd) := by
    rw [List.zip_map_left]
    rfl
  rw [h_tree, h_init, h_zip, ← initRegistrations_texts, List.zip_map']

/-- The tree of `init_snmp`, registered from the last to the first. -/
theorem registration_reversed :
    (initOids ⟨ascii "Jan  1 2026", rfl⟩).tree =
      ((initOids ⟨ascii "Jan  1 2026", rfl⟩).reorder _ (List.reverse_perm _).symm).tree := by
  have h_first : ∀ r ∈ (initOids ⟨ascii "Jan  1 2026", rfl⟩).oids, r.1.headD 0 = 1 := by
    intro r h_r
    have h_arcs : ∀ o ∈ initArcs, o.headD 0 = 1 := by decide +kernel
    exact h_arcs r.1 (List.of_mem_zip h_r).1
  refine ((OidSet.registration_iff _ _ (fun _ => 0) (List.reverse_perm _).symm).mpr ?_).1
  rw [OidSet.firstArcs_of_forall (List.cons_ne_nil _ _) h_first]
  refine (OidSet.firstArcs_of_forall (mt List.reverse_eq_nil_iff.mp (List.cons_ne_nil _ _)) ?_).symm
  exact fun r h_r => h_first r (List.mem_reverse.mp h_r)

/-- Two OIDs with different first arcs. -/
def twoRoots : OidSet where
  oids := [([1, 3], .staticText (ascii "a")), ([2, 5], .staticText (ascii "b"))]
  ne_nil := by decide
  fit := by
    unfold ArcsFit
    decide
  apart := by decide

theorem registration_differs :
    twoRoots.tree ≠ (twoRoots.reorder _ (List.reverse_perm _).symm).tree := by
  rw [Ne, OidSet.tree_eq_iff (List.reverse_perm _).symm]
  decide

end IscsiTarget
