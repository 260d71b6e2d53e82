import IscsiTarget.Lib.Forest
import IscsiTarget.Snmp.Dotted
import IscsiTarget.Snmp.Tree

/-!
# What registering builds

The tree is a forest of paths: a node has the text of its path, and the OIDs that were
registered are the paths of its leaves. `registerLoop_stores` says that registering an OID
adds it and loses nothing, as long as no OID is the beginning of another.

Below the top level the children of a node come in the order of their arcs, however they were
registered. At the top level no node has a dot in its text, so all have index 0 there, and
they stay in the order they were registered in.
-/

namespace IscsiTarget

open SnmpDataType SnmpData Forest

/-- A node at a path, as `register_oid` makes it. -/
def nodeAt (path : List ℕ) (kind : SnmpKind) (children : List SnmpDataType) : SnmpDataType :=
  setTreeData kind (dotted path) children

/-- The order of the children of the node at `path`. At the top level there is
none. -/
def ArcBefore (path : List ℕ) (a b : ℕ) : Prop := if path = [] then a ≠ b else a < b

theorem ArcBefore.ne {path : List ℕ} {a b : ℕ} (h : ArcBefore path a b) : a ≠ b := by
  unfold ArcBefore at h
  split at h
  · exact h
  · exact h.ne

theorem ArcBefore.lt {path : List ℕ} {a b : ℕ} (h_path : path ≠ []) (h : ArcBefore path a b) :
    a < b := by
  rw [ArcBefore, if_neg h_path] at h
  exact h

/-- The forest below `path` has these OIDs, which are given from there on. -/
abbrev Stores : List ℕ → List SnmpDataType → List (List ℕ × SnmpKind) → Prop :=
  Spans nodeAt .plain ArcBefore

variable {path : List ℕ} {lut : List SnmpDataType} {es : List (List ℕ × SnmpKind)}

@[simp] theorem getOid_nodeAt (kind : SnmpKind) (children : List SnmpDataType) :
    (nodeAt path kind children).getOid = dotted path := rfl

@[simp] theorem getChildren_nodeAt (kind : SnmpKind) (children : List SnmpDataType) :
    (nodeAt path kind children).getChildren = children := rfl

@[simp] theorem kind_nodeAt (kind : SnmpKind) (children : List SnmpDataType) :
    (nodeAt path kind children).kind = kind := rfl

theorem getOidIdx_nodeAt {a : ℕ} (ha : a < 2 ^ 31) (kind : SnmpKind)
    (children : List SnmpDataType) :
    (nodeAt (path ++ [a]) kind children).getOidIdx = if path = [] then 0 else (a : ℤ) :=
  treeIdx_dotted ha

/-- The search of all lookups: the node below `path` that a part of a text leads
to. -/
theorem findOidInVector_key (part : Bytes) (a : ℕ) (kind : SnmpKind)
    (children : List SnmpDataType) :
    ((nodeAt (path ++ [a]) kind children).getOid == curOid (dotted path) part) = true ↔
      unsignedText a = part := by
  rw [getOid_nodeAt, ← curOid_dotted, beq_iff_eq]
  exact (curOid_injective _).eq_iff

/-! ### One OID more -/

/-- No arc is out of the range of an `int`. -/
def ArcsFit (es : List (List ℕ × SnmpKind)) : Prop := ∀ e ∈ es, ∀ a ∈ e.1, a < 2 ^ 31

/-- A new node, with what is below it. It is put in front of the first node with
a greater index, so that the order is kept. -/
theorem insertNode_stores {a : ℕ} {kind : SnmpKind} {children : List SnmpDataType}
    {cs : List (List ℕ × SnmpKind)} (h : Stores path lut es) (h_fit : ArcsFit es)
    (ha : a < 2 ^ 31) (h_below : Stores (path ++ [a]) children cs)
    (h_value : cs ≠ [] → kind = .plain) (h_new : ∀ e ∈ es, e.1.head? ≠ some a) :
    ∃ es', Stores path (insertNode (nodeAt (path ++ [a]) kind children) lut) es' ∧
      es'.Perm (entries a kind cs ++ es) := by
  -- induction on the nodes of this level, which stand in the order of their arcs
  induction h with
  | nil path =>
    have h_one := Spans.cons h_below h_value (fun e he => absurd he List.not_mem_nil)
      (Spans.nil path)
    exact ⟨_, h_one, .refl _⟩
  | @cons path b kind' children' lut cs' es h_below' h_value' h_before h_rest _ ih =>
    have h_own : ∀ e ∈ entries b kind' cs', e.1.head? = some b := fun _ => head?_of_mem_entries
    obtain ⟨e₁, own, h_e₁⟩ := List.exists_cons_of_ne_nil (entries_ne_nil b kind' cs')
    have h_mem : e₁ ∈ entries b kind' cs' := h_e₁ ▸ List.mem_cons_self
    have h_ne : a ≠ b := by
      rintro rfl
      exact h_new e₁ (List.mem_append_left _ h_mem) (h_own e₁ h_mem)
    have hb : b < 2 ^ 31 := by
      obtain ⟨q, h_q⟩ := List.head?_eq_some_iff.mp (h_own e₁ h_mem)
      refine h_fit e₁ (List.mem_append_left _ h_mem) b ?_
      rw [h_q]
      exact List.mem_cons_self
    rw [insertNode, getOidIdx_nodeAt ha, getOidIdx_nodeAt hb]
    by_cases h_lt : (if path = [] then 0 else (a : ℤ)) < if path = [] then 0 else (b : ℤ)
    · -- in front of the first node with a larger arc
      rw [if_pos h_lt]
      have h_path : path ≠ [] := by
        intro h_nil
        rw [if_pos h_nil, if_pos h_nil] at h_lt
        exact absurd h_lt (lt_irrefl _)
      rw [if_neg h_path, if_neg h_path, Int.ofNat_lt] at h_lt
      refine ⟨_, .cons h_below h_value (fun e he c hc => ?_)
        (.cons h_below' h_value' h_before h_rest), .refl _⟩
      rw [ArcBefore, if_neg h_path]
      rcases List.mem_append.mp he with he | he
      · rw [h_own e he] at hc
        cases hc
        exact h_lt
      · exact h_lt.trans ((h_before e he c hc).lt h_path)
    · -- behind this node; at the top all indexes are zero, and a new node goes to the end
      rw [if_neg h_lt]
      obtain ⟨es', h_es', h_perm⟩ := ih (fun e he => h_fit e (List.mem_append_right _ he)) h_below
        (fun e he => h_new e (List.mem_append_right _ he))
      refine ⟨_, .cons h_below' h_value' (fun e he c hc => ?_) h_es', ?_⟩
      · rcases List.mem_append.mp (h_perm.subset he) with he | he
        · rw [head?_of_mem_entries he] at hc
          cases hc
          unfold ArcBefore
          split
          · exact h_ne.symm
          · next h_path =>
            rw [if_neg h_path, if_neg h_path, Int.ofNat_lt] at h_lt
            omega
        · exact h_before e he c hc
      · refine (h_perm.append_left _).trans ?_
        rw [← List.append_assoc, ← List.append_assoc]
        exact List.perm_append_comm.append_right es

/-- Changing a node is putting another one in its place. -/
theorem modify_eq_set_of_getElem? {β : Type*} {l : List β} {i : ℕ} {n : β} {f : β → β}
    (h : l[i]? = some n) : l.modify i f = l.set i (f n) := by
  have h_default : Inhabited β := ⟨n⟩
  rw [List.modify_eq_set, h, Option.getD_some]

/-- The OID is no beginning of another, and no other is a beginning of it. -/
def Apart (arcs arcs' : List ℕ) : Prop := ¬ arcs <+: arcs' ∧ ¬ arcs' <+: arcs

instance (arcs arcs' : List ℕ) : Decidable (Apart arcs arcs') :=
  inferInstanceAs (Decidable (_ ∧ _))

theorem Apart.symm {arcs arcs' : List ℕ} (h : Apart arcs arcs') : Apart arcs' arcs :=
  ⟨h.2, h.1⟩

/-- Behind the same arc. -/
theorem apart_cons {a : ℕ} {arcs arcs' : List ℕ} :
    Apart (a :: arcs) (a :: arcs') ↔ Apart arcs arcs' := by
  unfold Apart
  rw [List.cons_prefix_cons, List.cons_prefix_cons]
  simp

/-- **Registering an OID** that is apart from all others adds it. By induction
on its arcs: the node of the first one is there, or is put into its place. -/
theorem registerLoop_stores {e : SnmpKind} {arcs : List ℕ} (h_arcs : arcs ≠ [])
    (h : Stores path lut es) (h_fit : ArcsFit es) (h_new : ∀ a ∈ arcs, a < 2 ^ 31)
    (h_apart : ∀ x ∈ es, Apart arcs x.1) :
    ∃ es', Stores path (registerLoop e (arcs.map unsignedText) (dotted path) lut) es' ∧
      es'.Perm ((arcs, e) :: es) := by
  induction arcs generalizing path lut es with
  | nil => exact absurd rfl h_arcs
  | cons a arcs ih =>
    have ha : a < 2 ^ 31 := h_new a List.mem_cons_self
    have h_rest : ∀ b ∈ arcs, b < 2 ^ 31 := fun b hb => h_new b (List.mem_cons_of_mem a hb)
    have h_key : ∀ b kind children, ((nodeAt (path ++ [b]) kind children).getOid ==
        curOid (dotted path) (unsignedText a)) = true ↔ b = a := fun b kind children =>
      (findOidInVector_key _ b kind children).trans unsignedText_injective.eq_iff
    rw [List.map_cons, registerLoop, curOid_dotted]
    dsimp only
    rw [← curOid_dotted, findOidInVector]
    rcases h.findIdx? (p := fun n => n.getOid == curOid (dotted path) (unsignedText a)) h_key with
      ⟨h_none, h_no⟩ | ⟨i, b, kind, children, cs, pre, post, h_some, rfl, h_at⟩
    · -- a new node, with the other arcs below it
      rw [h_none, curOid_dotted]
      dsimp only
      have h_fresh : ∀ x ∈ es, x.1.head? ≠ some a := fun x hx h_head => h_no x hx a h_head rfl
      by_cases h_nil : arcs = []
      · subst h_nil
        exact insertNode_stores h h_fit ha (.nil _) (fun h => absurd rfl h) h_fresh
      · obtain ⟨cs, h_cs, h_perm⟩ := ih h_nil (.nil (path ++ [a])) (fun x hx => by cases hx)
          h_rest (fun x hx => by cases hx)
        obtain rfl := List.perm_singleton.mp h_perm
        rw [if_neg (by rwa [List.map_eq_nil_iff])]
        exact insertNode_stores h h_fit ha h_cs (fun _ => rfl) h_fresh
    · -- the node is there already
      rw [h_some, curOid_dotted]
      dsimp only
      have h_own : ∀ x ∈ entries b kind cs, x ∈ es := by
        intro x hx
        rw [h_at.own]
        exact List.mem_append_left _ (List.mem_append_right _ hx)
      -- and it is no leaf, nor the last one of the new OID
      have h_cs : cs ≠ [] := by
        rintro rfl
        have h_leaf := h_own ([b], kind) (by rw [entries_nil]; exact List.mem_cons_self)
        exact (h_apart _ h_leaf).2 (List.cons_prefix_cons.mpr ⟨rfl, List.nil_prefix⟩)
      have h_below : ∀ x ∈ cs, (b :: x.1, x.2) ∈ es := fun x hx =>
        h_own _ (mem_entries.mpr (.inr ⟨x, hx, rfl⟩))
      have h_nil : arcs ≠ [] := by
        rintro rfl
        obtain ⟨x, cs', rfl⟩ := List.exists_cons_of_ne_nil h_cs
        have h_x := h_below x List.mem_cons_self
        exact (h_apart _ h_x).1 (List.cons_prefix_cons.mpr ⟨rfl, List.nil_prefix⟩)
      obtain ⟨cs', h_cs', h_perm⟩ := ih h_nil h_at.below
        (fun x hx c hc => h_fit _ (h_below x hx) c (List.mem_cons_of_mem b hc)) h_rest
        (fun x hx => apart_cons.mp (h_apart _ (h_below x hx)))
      have h_cs'_ne : cs' ≠ [] := by
        rintro rfl
        exact absurd h_perm.symm (List.cons_ne_nil _ _ ∘ List.perm_nil.mp)
      have h_stores := h_at.replace kind _ cs' h_cs' (fun _ => h_at.value h_cs)
      rw [modify_eq_set_of_getElem? h_at.node]
      refine ⟨_, h_stores, ?_⟩
      rw [h_at.own, entries_of_ne h_cs'_ne, entries_of_ne h_cs]
      have h_map := h_perm.map fun x => (b :: x.1, x.2)
      rw [List.map_cons] at h_map
      have h_left := (h_map.append_left pre).append_right post
      refine h_left.trans ?_
      rw [List.append_assoc, List.append_assoc, List.cons_append]
      exact List.perm_middle

end IscsiTarget
