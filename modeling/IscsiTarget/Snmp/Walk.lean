import IscsiTarget.Snmp.Mib

/-!
# Walking the tree

`find_next_oid` goes down along the parts of its argument as far as there are nodes, then down
to a leaf, always by the first child. For an argument that is no registered OID that leaf is
the answer: of the OIDs that share the longest beginning with the argument, the least
(`findNextOid_of_forall`). For a registered OID it goes up again to the first node with a
child further right. `Right` says what is to the right of the stack it does this with, so that
the answer is the next OID in order (`findNextOid_of_mem`), and a walk sees them all.
-/

namespace IscsiTarget

open SnmpDataType SnmpData Forest

variable {path : List ℕ} {lut : List SnmpDataType} {es : List (List ℕ × SnmpKind)}
  {parent : Option SnmpDataType} {branch : Branch}

/-! ### Down to the first leaf -/

/-- The first OID of a node that is no leaf. -/
theorem entries_cons (a : ℕ) (kind : SnmpKind) (e : List ℕ × SnmpKind)
    (cs : List (List ℕ × SnmpKind)) :
    entries a kind (e :: cs) = (a :: e.1, e.2) :: cs.map fun x => (a :: x.1, x.2) :=
  entries_of_ne (List.cons_ne_nil _ _)

/-- The first leaf of a node is its first OID. By induction on the tree, taking
the first child each time. -/
theorem getOid_firstLeaf {n : SnmpDataType} (h : Stores path (n :: lut) es) :
    ∃ e rest, es = e :: rest ∧ (firstLeaf n).getOid = dotted (path ++ e.1) := by
  generalize h_lut : n :: lut = all at h
  induction h generalizing n lut with
  | nil => cases h_lut
  | @cons path a kind children lut' cs es' h_below _ _ _ ih _ =>
    obtain ⟨rfl, rfl⟩ := List.cons.inj h_lut
    cases children with
    | nil =>
      -- a leaf is its own first leaf
      obtain rfl := h_below.nil_iff.mp rfl
      refine ⟨([a], kind), es', ?_, rfl⟩
      rw [entries_nil]
      rfl
    | cons m children =>
      -- a node begins with what its first child begins with
      obtain ⟨e, rest, rfl, h_leaf⟩ := ih rfl
      refine ⟨(a :: e.1, e.2), rest.map (fun x => (a :: x.1, x.2)) ++ es', ?_, ?_⟩
      · rw [entries_cons]
        rfl
      · rw [show firstLeaf (nodeAt (path ++ [a]) kind (m :: children)) = firstLeaf m from rfl,
          h_leaf,
          List.append_assoc, List.singleton_append]

/-- So is the leaf that the second loop ends at. It takes the first child each
time as well, and notes the way. -/
theorem descendLoop_fst (h : Stores path lut es) (h_ne : lut ≠ []) (parent : Option SnmpDataType)
    (branch : Branch) :
    ∃ leaf e rest, (descendLoop parent lut branch).1 = some leaf ∧ es = e :: rest ∧
      leaf.getOid = dotted (path ++ e.1) := by
  induction h generalizing parent branch with
  | nil => exact absurd rfl h_ne
  | @cons path a kind children lut' cs es' h_below _ _ _ ih _ =>
    -- the loop goes to the first child, and remembers where it came from
    have h_step : descendLoop parent (nodeAt (path ++ [a]) kind children :: lut') branch =
        descendLoop (some (nodeAt (path ++ [a]) kind children)) children
          ((parent, 0) :: branch) := by
      rw [nodeAt, setTreeData, descendLoop]
    rw [h_step]
    cases children with
    | nil =>
      -- no children, so it ends here
      obtain rfl := h_below.nil_iff.mp rfl
      refine ⟨nodeAt (path ++ [a]) kind [], ([a], kind), es', by rw [descendLoop], ?_, rfl⟩
      rw [entries_nil]
      rfl
    | cons m children =>
      obtain ⟨leaf, e, rest, h_leaf, rfl, h_oid⟩ := ih (List.cons_ne_nil _ _) _ _
      refine ⟨leaf, (a :: e.1, e.2), rest.map (fun x => (a :: x.1, x.2)) ++ es', h_leaf, ?_, ?_⟩
      · rw [entries_cons]
        rfl
      · rw [h_oid, List.append_assoc, List.singleton_append]

/-! ### An argument that is not registered -/

/-- How many parts of a text are the first arcs of an OID. -/
def common : List Bytes → List ℕ → ℕ
  | part :: parts, a :: o => if unsignedText a = part then common parts o + 1 else 0
  | _, _ => 0

theorem common_of_head? {part : Bytes} {parts : List Bytes} {o : List ℕ}
    (h : ∀ a ∈ o.head?, unsignedText a ≠ part) : common (part :: parts) o = 0 := by
  cases o with
  | nil => rfl
  | cons a o => rw [common, if_neg (h a rfl)]

/-- Below a node without children there is nowhere to go. -/
theorem matchLoop_nil (parts : List Bytes) (cur : Bytes) (parent : Option SnmpDataType)
    (branch : Branch) : matchLoop parts cur parent [] branch = (parent, [], branch) := by
  cases parts with
  | nil => rfl
  | cons part parts => rfl

/-- The least of the OIDs that share the longest beginning with the argument;
`common` is the length of that beginning. -/
structure Closest (parts : List Bytes) (es : List (List ℕ × SnmpKind)) (o : List ℕ × SnmpKind) :
    Prop where
  mem : o ∈ es
  longest : ∀ x ∈ es, common parts x.1 ≤ common parts o.1
  least : ∀ x ∈ es, common parts x.1 = common parts o.1 → o.1 ≤ x.1

/-- When no OID shares more than another, the first one is the closest. -/
theorem Closest.of_forall {parts : List Bytes} {e : List ℕ × SnmpKind}
    {rest : List (List ℕ × SnmpKind)} (h_sorted : (e :: rest).Pairwise fun x y => x.1 < y.1)
    (h : ∀ x ∈ e :: rest, common parts x.1 = 0) : Closest parts (e :: rest) e where
  mem := List.mem_cons_self
  longest x hx := by rw [h x hx, h e List.mem_cons_self]
  least x hx _ := by
    rcases List.mem_cons.mp hx with rfl | hx
    · exact le_rfl
    · exact ((List.pairwise_cons.mp h_sorted).1 x hx).le

/-- **The first two loops** end at the closest OID. By induction on the parts of
the text: as long as a node has the next part the first loop goes down, and then
the second one goes on. -/
theorem descend_matchLoop (parts : List Bytes) (h : Stores path lut es) (h_ne : lut ≠ [])
    (h_sorted : es.Pairwise fun x y => x.1 < y.1) (parent : Option SnmpDataType)
    (branch : Branch) :
    ∃ leaf o, Closest parts es o ∧ leaf.getOid = dotted (path ++ o.1) ∧
      (descendLoop (matchLoop parts (dotted path) parent lut branch).1
        (matchLoop parts (dotted path) parent lut branch).2.1
        (matchLoop parts (dotted path) parent lut branch).2.2).1 = some leaf := by
  induction parts generalizing path lut es parent branch with
  | nil =>
    obtain ⟨leaf, e, rest, h_leaf, rfl, h_oid⟩ := descendLoop_fst h h_ne parent branch
    exact ⟨leaf, e, .of_forall h_sorted fun _ _ => by rw [common]; simp, h_oid, h_leaf⟩
  | cons part parts ih =>
    rw [matchLoop, findOidInVector]
    rcases h.findIdx? (p := fun n => n.getOid == curOid (dotted path) part)
      (findOidInVector_key part) with
      ⟨h_none, h_no⟩ | ⟨i, a, kind, children, cs, pre, post, h_some, rfl, h_at⟩
    · -- no node for the part
      rw [h_none]
      obtain ⟨leaf, e, rest, h_leaf, rfl, h_oid⟩ := descendLoop_fst h h_ne parent branch
      exact ⟨leaf, e, .of_forall h_sorted fun x hx => common_of_head? (h_no x hx), h_oid, h_leaf⟩
    · rw [h_some]
      dsimp only
      rw [h_at.node, curOid_dotted]
      dsimp only
      rw [getChildren_nodeAt]
      -- the OIDs of this node share a part, and no other does
      have h_own : ∀ x ∈ entries a kind cs, x ∈ es := by
        intro x hx
        rw [h_at.own]
        exact List.mem_append_left _ (List.mem_append_right _ hx)
      have h_other : ∀ x ∈ es, x ∉ entries a kind cs →
          common (unsignedText a :: parts) x.1 = 0 := by
        intro x hx h_not
        refine common_of_head? fun b hb h_text => h_not (mem_entries_of_at h_at hx ?_)
        rw [← unsignedText_injective h_text]
        exact hb
      have h_up : ∀ o : List ℕ, common (unsignedText a :: parts) (a :: o) = common parts o + 1 :=
        fun o => if_pos rfl
      by_cases h_leaf : children = []
      · subst h_leaf
        obtain rfl := h_at.below.nil_iff.mp rfl
        rw [matchLoop_nil, descendLoop]
        rw [entries_nil] at h_own h_other
        have h_mem : ([a], kind) ∈ es := h_own _ List.mem_cons_self
        refine ⟨_, ([a], kind), ⟨h_mem, fun x hx => ?_, fun x hx h_eq => ?_⟩, rfl, rfl⟩
        · by_cases h_x : x ∈ [([a], kind)]
          · rw [List.mem_singleton.mp h_x]
          · rw [h_other x hx h_x]
            exact Nat.zero_le _
        · by_cases h_x : x ∈ [([a], kind)]
          · rw [List.mem_singleton.mp h_x]
          · rw [h_other x hx h_x, h_up] at h_eq
            exact absurd h_eq (Nat.succ_ne_zero _).symm
      · have h_cs : cs ≠ [] := mt h_at.below.nil_iff.mpr h_leaf
        rw [entries_of_ne h_cs] at h_own h_other
        have h_cs_sorted : cs.Pairwise fun x y => x.1 < y.1 := by
          rw [h_at.own, entries_of_ne h_cs] at h_sorted
          have h_map := ((List.pairwise_append.mp (List.pairwise_append.mp h_sorted).1).2).1
          rw [List.pairwise_map] at h_map
          refine h_map.imp fun h_lt => ?_
          rcases List.cons_lt_cons_iff.mp h_lt with h_a | ⟨-, h_lt⟩
          · exact absurd h_a (lt_irrefl _)
          · exact h_lt
        obtain ⟨leaf, o, h_o, h_oid, h_some⟩ := ih h_at.below h_leaf h_cs_sorted
          (some (nodeAt (path ++ [a]) kind children)) ((parent, i) :: branch)
        refine ⟨leaf, (a :: o.1, o.2), ⟨h_own _ (List.mem_map_of_mem h_o.mem), fun x hx => ?_,
          fun x hx h_eq => ?_⟩, ?_, h_some⟩
        · by_cases h_x : x ∈ cs.map fun e => (a :: e.1, e.2)
          · obtain ⟨c, hc, rfl⟩ := List.mem_map.mp h_x
            rw [h_up, h_up]
            exact Nat.succ_le_succ (h_o.longest c hc)
          · rw [h_other x hx h_x]
            exact Nat.zero_le _
        · by_cases h_x : x ∈ cs.map fun e => (a :: e.1, e.2)
          · obtain ⟨c, hc, rfl⟩ := List.mem_map.mp h_x
            rw [h_up, h_up] at h_eq
            exact List.cons_le_cons a (h_o.least c hc (Nat.succ_injective h_eq))
          · rw [h_other x hx h_x, h_up] at h_eq
            exact absurd h_eq (Nat.succ_ne_zero _).symm
        · rw [h_oid, List.append_assoc, List.singleton_append]

/-! ### An argument that is registered -/

/-- The OIDs to the right of where the stack has been, in order: for each node
of it, what is stored behind the child it is at. -/
inductive Right : Branch → List (List ℕ) → Prop
  | top (i : ℕ) : Right [(none, i)] []
  | node {p : List ℕ} {kind : SnmpKind} {children : List SnmpDataType} {i : ℕ}
      {rs : List (List ℕ × SnmpKind)} {branch : Branch} {after : List (List ℕ)}
      (h_rest : Stores p (children.drop (i + 1)) rs) (h : Right branch after) :
      Right ((some (nodeAt p kind children), i) :: branch) (rs.map (fun e => p ++ e.1) ++ after)

/-- The third loop returns the next of them. It goes up the stack until there is
a child behind the one it came from, and then down to a leaf. -/
theorem siblingLoop_of_right {after : List (List ℕ)} (h : Right branch after) :
    siblingLoop branch = (after.head?.map dotted).getD [] := by
  induction h with
  -- beyond the last OID the text is empty
  | top i => rfl
  | @node p kind children i rs branch after h_rest h ih =>
    rw [siblingLoop, getChildren_nodeAt]
    split
    · next n h_n =>
      -- there is a sibling to the right, and its first leaf is next
      obtain ⟨h_lt, h_n⟩ := List.getElem?_eq_some_iff.mp h_n
      rw [List.drop_eq_getElem_cons h_lt, h_n] at h_rest
      obtain ⟨e, rest, rfl, h_leaf⟩ := getOid_firstLeaf h_rest
      exact h_leaf
    · next h_none =>
      -- there is none, so the loop goes on one level up
      rw [List.drop_eq_nil_of_le (List.getElem?_eq_none_iff.mp h_none)] at h_rest
      obtain rfl := h_rest.nil_iff.mp rfl
      rw [List.map_nil, List.nil_append]
      exact ih

/-- A node goes onto the stack with what is to the right of it. -/
def PushesRight (path : List ℕ) (lut : List SnmpDataType) (parent : Option SnmpDataType)
    (branch : Branch) (after : List (List ℕ)) : Prop :=
  ∀ i rs, i < lut.length → Stores path (lut.drop (i + 1)) rs →
    Right ((parent, i) :: branch) (rs.map (fun e => path ++ e.1) ++ after)

/-- **The first loop** goes down to a registered OID, and leaves on the stack
what is to the right of it. -/
theorem matchLoop_of_mem {s : List ℕ} {k : SnmpKind} {after : List (List ℕ)}
    (h : Stores path lut es) (h_push : PushesRight path lut parent branch after)
    (h_mem : (s, k) ∈ es) :
    ∃ pre post branch', es = pre ++ (s, k) :: post ∧
      matchLoop (s.map unsignedText) (dotted path) parent lut branch =
        (some (nodeAt (path ++ s) k []), [], branch') ∧
      Right branch' (post.map (fun e => path ++ e.1) ++ after) := by
  -- induction on the arcs that are left to match; the stack grows by one node for each
  induction s generalizing path lut es parent branch after with
  | nil => exact absurd rfl (h.ne_nil h_mem)
  | cons a s ih =>
    rw [List.map_cons, matchLoop, findOidInVector]
    rcases h.findIdx? (p := fun n => n.getOid == curOid (dotted path) (unsignedText a))
      (findOidInVector_key (unsignedText a)) with
      ⟨-, h_no⟩ | ⟨i, b, kind, children, cs, pre, post, h_some, h_b, h_at⟩
    · exact absurd rfl (h_no _ h_mem a rfl)
    -- the node that is found is the one with the arc, since no two numbers are printed alike
    obtain rfl := unsignedText_injective h_b
    rw [h_some]
    dsimp only
    rw [h_at.node, curOid_dotted]
    dsimp only
    rw [getChildren_nodeAt]
    have h_i : i < lut.length := (List.getElem?_eq_some_iff.mp h_at.node).1
    have h_right := h_push i post h_i h_at.right
    have h_own := mem_entries_of_at h_at h_mem rfl
    by_cases h_cs : cs = []
    · -- the leaf
      subst h_cs
      obtain rfl := h_at.below.nil_iff.mpr rfl
      rw [entries_nil] at h_own
      obtain ⟨h_s, rfl⟩ := Prod.mk.inj (List.mem_singleton.mp h_own)
      obtain rfl := (List.cons.inj h_s).2
      refine ⟨pre, post, (parent, i) :: branch, ?_, rfl, h_right⟩
      rw [h_at.own, entries_nil, List.append_assoc, List.singleton_append]
    · -- a node with children: the OID goes on below it
      rw [entries_of_ne h_cs] at h_own
      obtain ⟨c, hc, h_c⟩ := List.mem_map.mp h_own
      obtain ⟨h_s, rfl⟩ := Prod.mk.inj h_c
      obtain rfl := (List.cons.inj h_s).2
      have h_push' : PushesRight (path ++ [b]) children (some (nodeAt (path ++ [b]) kind children))
          ((parent, i) :: branch) (post.map (fun e => path ++ e.1) ++ after) :=
        fun j rs _ h_rs => .node h_rs h_right
      obtain ⟨pre', post', branch', h_split, h_match, h_right'⟩ := ih h_at.below h_push' hc
      refine ⟨pre ++ pre'.map (fun e => (b :: e.1, e.2)),
        post'.map (fun e => (b :: e.1, e.2)) ++ post, branch', ?_, ?_, ?_⟩
      · rw [h_at.own, entries_of_ne h_cs, h_split, List.map_append, List.map_cons]
        simp only [List.append_assoc, List.cons_append]
      · rw [h_match, List.append_assoc, List.singleton_append]
      · rw [List.map_append, List.map_map, List.append_assoc]
        have h_paths : (post'.map fun e => path ++ [b] ++ e.1) =
            post'.map ((fun e => path ++ e.1) ∘ fun e => (b :: e.1, e.2)) := by
          refine List.map_congr_left fun e _ => ?_
          rw [List.append_assoc, List.singleton_append]
          rfl
        rw [← h_paths]
        exact h_right'

/-! ### `find_next_oid` -/

namespace OidSet

variable {S : OidSet} {a : ℕ}

/-- There are OIDs, and all begin with the same arc. -/
def SharesFirst (S : OidSet) (a : ℕ) : Prop := S.oids ≠ [] ∧ ∀ r ∈ S.oids, r.1.head? = some a

/-- Their tree: one node at the top, and the OIDs in order. With a single first
arc the top level cannot be out of order. -/
theorem SharesFirst.stores_tree (h : S.SharesFirst a) :
    ∃ es, Stores [] S.tree.data es ∧ es.Perm S.oids ∧ S.tree.data.length = 1 ∧
      es.Pairwise fun x y => x.1 < y.1 := by
  obtain ⟨es, h_es, h_perm, h_tops⟩ := S.stores_tree
  have h_first : S.firstArcs = [a] := by
    refine firstArcs_of_forall h.1 fun r h_r => ?_
    obtain ⟨q, h_q⟩ := List.head?_eq_some_iff.mp (h.2 r h_r)
    rw [h_q]
    rfl
  -- all OIDs begin with the same arc, so there is one node at the top
  have h_len : S.tree.data.length = 1 := by
    have h_map := congrArg List.length h_tops
    rw [h_first, List.length_map, List.length_map] at h_map
    exact h_map
  refine ⟨es, h_es, h_perm, h_len, ?_⟩
  generalize S.tree.data = lut at h_es h_len
  cases h_es with
  | nil => cases h_len
  | @cons _ b kind children lut' cs es' h_below _ _ h_rest =>
    obtain rfl := List.length_eq_zero_iff.mp (Nat.succ_injective h_len)
    obtain rfl := h_rest.nil_iff.mp rfl
    rw [List.append_nil]
    refine pairwise_entries (h_below.sorted fun p c d h_p h_cd => h_cd.lt ?_)
    rintro rfl
    exact absurd (List.prefix_nil.mp h_p) (List.cons_ne_nil _ _)

/-- For an OID that is not registered, the closest one. The code does not go on
to the next one then, even if the closest one comes before. -/
theorem SharesFirst.findNextOid_of_forall (h : S.SharesFirst a) {q : Bytes}
    (h_q : ∀ r ∈ S.oids, q ≠ dotted r.1) :
    ∃ o, Closest (split q (ascii ".")) S.oids o ∧ S.tree.findNextOid q = some (dotted o.1) := by
  obtain ⟨es, h_es, h_perm, h_len, h_sorted⟩ := h.stores_tree
  have h_ne : S.tree.data ≠ [] := List.ne_nil_of_length_pos (h_len ▸ Nat.one_pos)
  obtain ⟨leaf, o, h_o, h_oid, h_leaf⟩ :=
    descend_matchLoop (split q (ascii ".")) h_es h_ne h_sorted none []
  refine ⟨o, ⟨h_perm.subset h_o.mem, fun x hx => h_o.longest x (h_perm.symm.subset hx),
    fun x hx => h_o.least x (h_perm.symm.subset hx)⟩, ?_⟩
  rw [List.nil_append] at h_oid
  -- the loops end at the closest OID, which is not the one asked for, so it is the answer
  have h_differs : leaf.getOid ≠ q := by
    rw [h_oid]
    exact (h_q o (h_perm.subset h_o.mem)).symm
  unfold findNextOid
  have h_cur : dotted [] = [] := rfl
  rw [h_cur] at h_leaf
  generalize matchLoop (split q (ascii ".")) [] none S.tree.data [] = m at h_leaf
  obtain ⟨parent, lut, branch⟩ := m
  dsimp only at h_leaf ⊢
  generalize descendLoop parent lut branch = d at h_leaf
  obtain ⟨parent', branch'⟩ := d
  dsimp only at h_leaf ⊢
  rw [h_leaf]
  dsimp only
  rw [if_pos h_differs, h_oid]

/-- For a registered OID, the next one in order, and an empty text behind the
last one. -/
theorem SharesFirst.findNextOid_of_mem (h : S.SharesFirst a) :
    ∃ es, es.Perm S.oids ∧ (es.Pairwise fun x y => x.1 < y.1) ∧ ∀ r ∈ es, ∃ pre post,
      es = pre ++ r :: post ∧
      S.tree.findNextOid (dotted r.1) = some ((post.head?.map fun e => dotted e.1).getD []) := by
  obtain ⟨es, h_es, h_perm, h_len, h_sorted⟩ := h.stores_tree
  refine ⟨es, h_perm, h_sorted, fun r h_r => ?_⟩
  -- at the top there is nothing to the right
  have h_push : PushesRight [] S.tree.data none [] [] := by
    intro i rs h_i h_rs
    have h_drop : S.tree.data.drop (i + 1) = [] := List.drop_eq_nil_of_le (by omega)
    rw [h_drop] at h_rs
    obtain rfl := h_rs.nil_iff.mp rfl
    exact .top i
  obtain ⟨pre, post, branch, h_split, h_match, h_right⟩ := matchLoop_of_mem h_es h_push h_r
  refine ⟨pre, post, h_split, ?_⟩
  have h_cur : dotted [] = [] := rfl
  rw [h_cur, List.nil_append] at h_match
  rw [List.append_nil] at h_right
  unfold findNextOid
  rw [split_dotted (S.ne_nil r (h_perm.subset h_r)), h_match]
  dsimp only
  rw [descendLoop]
  dsimp only
  rw [getOid_nodeAt, if_neg (not_not.mpr rfl)]
  -- the loops end at the OID itself, so the answer is what comes to the right of it
  have h_leaf : Right ((some (nodeAt r.1 r.2 []), 0) :: branch) _ := .node (.nil _) h_right
  rw [siblingLoop_of_right h_leaf, List.map_nil, List.nil_append, List.head?_map, Option.map_map]
  rfl

end OidSet

/-! ### A walk -/

/-- Asking for the next OID again and again, until there is none. -/
inductive Walk (sd : SnmpData) : Bytes → List Bytes → Prop
  | done {q : Bytes} (h : sd.findNextOid q = some []) : Walk sd q []
  | next {q next : Bytes} {rest : List Bytes} (h : sd.findNextOid q = some next) (h_ne : next ≠ [])
      (h_rest : Walk sd next rest) : Walk sd q (next :: rest)

/-- There is one walk at most. By induction on the first of the two, since a
GetNext has one answer. -/
theorem Walk.unique {sd : SnmpData} {q : Bytes} {xs ys : List Bytes} (h : Walk sd q xs)
    (h' : Walk sd q ys) : xs = ys := by
  induction h generalizing ys with
  | done h =>
    -- `find_next_oid` is a function, so both walks end, or go on with the same OID
    cases h' with
    | done _ => rfl
    | next h₂ h_ne _ => exact absurd (Option.some.inj (h₂.symm.trans h)) h_ne
  | next h h_ne _ ih =>
    cases h' with
    | done h₂ => exact absurd (Option.some.inj (h.symm.trans h₂)) h_ne
    | next h₂ _ h_rest' =>
      obtain rfl := Option.some.inj (h.symm.trans h₂)
      rw [ih h_rest']

/-- What is behind a registered OID is behind it in every way to look at it,
since no OID is registered twice. -/
theorem OidSet.SharesFirst.findNextOid_behind {S : OidSet} {a : ℕ} (h : S.SharesFirst a) :
    ∃ es, es.Perm S.oids ∧ (es.Pairwise fun x y => x.1 < y.1) ∧ ∀ pre r post,
      es = pre ++ r :: post →
      S.tree.findNextOid (dotted r.1) = some ((post.head?.map fun e => dotted e.1).getD []) := by
  obtain ⟨es, h_perm, h_sorted, h_next⟩ := h.findNextOid_of_mem
  refine ⟨es, h_perm, h_sorted, fun pre r post h_es => ?_⟩
  have h_r : r ∈ es := by
    rw [h_es]
    exact List.mem_append_right _ List.mem_cons_self
  obtain ⟨pre', post', h_es', h_find⟩ := h_next r h_r
  -- an OID is not smaller than itself, so it is there once
  rw [h_es, List.pairwise_append, List.pairwise_cons] at h_sorted
  obtain ⟨-, ⟨h_post, -⟩, h_pre⟩ := h_sorted
  have h_not_pre : r ∉ pre := fun h_mem => lt_irrefl _ (h_pre r h_mem r List.mem_cons_self)
  have h_not_post : r ∉ post := fun h_mem => lt_irrefl _ (h_post r h_mem)
  rw [h_es', eq_comm, List.append_cons_inj_of_notMem h_not_pre h_not_post] at h_es
  obtain ⟨-, -, rfl⟩ := h_es
  exact h_find

/-- A walk from a registered OID goes through those behind it. By induction on
them; behind the last one there is no answer. -/
theorem walk_from {sd : SnmpData} {es : List (List ℕ × SnmpKind)} (h_ne : ∀ e ∈ es, e.1 ≠ [])
    (h_next : ∀ pre r post, es = pre ++ r :: post →
      sd.findNextOid (dotted r.1) = some ((post.head?.map fun e => dotted e.1).getD []))
    {post : List (List ℕ × SnmpKind)} {r : List ℕ × SnmpKind} (pre : List (List ℕ × SnmpKind))
    (h_es : es = pre ++ r :: post) :
    Walk sd (dotted r.1) (post.map fun e => dotted e.1) := by
  induction post generalizing pre r with
  | nil => exact .done (h_next pre r [] h_es)
  | cons x post ih =>
    -- the next OID is registered too, and the walk goes on from there
    have h_x : x ∈ es := by
      rw [h_es]
      simp
    refine .next (h_next pre r (x :: post) h_es) (dotted_ne_nil (h_ne x h_x)) ?_
    exact ih (pre ++ [r]) (by rw [h_es, List.append_assoc, List.singleton_append])

/-- **A walk enumerates the OIDs.** From the arc that all OIDs begin with it
goes through each of them once, in lexicographic order, and ends. Every question
but the first is for an OID that is registered, so the step that goes backwards
(`getNext_iff`) does not come up. -/
theorem walk_enumerates (S : OidSet) {a : ℕ} (h : S.SharesFirst a)
    (h_two : ∀ r ∈ S.oids, 2 ≤ r.1.length) :
    ∃ os : List (List ℕ), os.Perm (S.oids.map Prod.fst) ∧ os.Pairwise (· < ·) ∧
      Walk S.tree (unsignedText a) (os.map dotted) := by
  obtain ⟨es, h_perm, h_sorted, h_next⟩ := h.findNextOid_behind
  have h_ne : ∀ e ∈ es, e.1 ≠ [] := fun e he => S.ne_nil e (h_perm.subset he)
  obtain ⟨first, rest, rfl⟩ : ∃ first rest, es = first :: rest := by
    refine List.exists_cons_of_ne_nil fun h_nil => h.1 ?_
    rw [h_nil] at h_perm
    exact List.nil_perm.mp h_perm
  refine ⟨(first :: rest).map Prod.fst, h_perm.map Prod.fst, List.pairwise_map.mpr h_sorted, ?_⟩
  -- the arc is not registered, and all OIDs share it
  have h_start : ∀ r ∈ S.oids, unsignedText a ≠ dotted r.1 := by
    intro r h_r h_eq
    have h_one : [a] = r.1 := dotted_injective h_eq
    have h_len := h_two r h_r
    rw [← h_one] at h_len
    exact absurd h_len (by simp)
  obtain ⟨o, h_o, h_find⟩ := h.findNextOid_of_forall h_start
  have h_parts : split (unsignedText a) (ascii ".") = [unsignedText a] :=
    split_dotted (List.cons_ne_nil a [])
  have h_common : ∀ r ∈ S.oids, common [unsignedText a] r.1 = 1 := by
    intro r h_r
    obtain ⟨q, h_q⟩ := List.head?_eq_some_iff.mp (h.2 r h_r)
    rw [h_q, common, if_pos rfl]
    rfl
  have h_first : first ∈ S.oids := h_perm.subset List.mem_cons_self
  have h_eq : o.1 = first.1 := by
    rw [h_parts] at h_o
    refine le_antisymm (h_o.least first h_first ?_) ?_
    · rw [h_common _ h_first, h_common _ h_o.mem]
    · rcases List.mem_cons.mp (h_perm.symm.subset h_o.mem) with rfl | h_rest
      · exact le_rfl
      · exact ((List.pairwise_cons.mp h_sorted).1 o h_rest).le
  rw [h_eq] at h_find
  rw [List.map_map]
  exact .next h_find (dotted_ne_nil (h_ne first List.mem_cons_self)) (walk_from h_ne h_next [] rfl)

/-- The walk from `1` through what `init_snmp` registers. -/
theorem walk_initSnmp : ∃ os : List (List ℕ), os.Perm initArcs ∧ os.Pairwise (· < ·) ∧
    Walk (initSnmp ⟨ascii "Jan  1 2026", rfl⟩) (ascii "1") (os.map dotted) := by
  have h_arcs : ∀ o ∈ initArcs, o.head? = some 1 ∧ 2 ≤ o.length := by decide +kernel
  obtain ⟨os, h_perm, h_sorted, h_walk⟩ :=
    walk_enumerates (initOids ⟨ascii "Jan  1 2026", rfl⟩) (a := 1)
      ⟨List.cons_ne_nil _ _, fun r h_r => (h_arcs r.1 (List.of_mem_zip h_r).1).1⟩
      (fun r h_r => (h_arcs r.1 (List.of_mem_zip h_r).1).2)
  have h_oids : (initOids ⟨ascii "Jan  1 2026", rfl⟩).oids.map Prod.fst = initArcs :=
    List.map_fst_zip le_rfl
  rw [h_oids] at h_perm
  rw [tree_initOids] at h_walk
  exact ⟨os, h_perm, h_sorted, h_walk⟩

/-! ### The successor of an argument that is not registered -/

/-- The arcs of a text, as numbers. -/
def arcsOf (q : Bytes) : List ℕ := (split q (ascii ".")).map decimal

/-- `r` is the text of the least OID that is greater than the arcs of `q`, or
empty when there is none. -/
def IsNext (S : OidSet) (q r : Bytes) : Prop :=
  (∃ o ∈ S.oids, r = dotted o.1 ∧ arcsOf q < o.1 ∧ ∀ x ∈ S.oids, arcsOf q < x.1 → o.1 ≤ x.1) ∨
    r = [] ∧ ∀ x ∈ S.oids, ¬ arcsOf q < x.1

/-- The shared parts are the same arcs. By induction on the parts, and with the
first one that differs they end. -/
theorem take_common (parts : List Bytes) (o : List ℕ) :
    o.take (common parts o) <+: parts.map decimal := by
  induction parts generalizing o with
  | nil =>
    rw [common]
    · exact List.nil_prefix
    · simp
  | cons part parts ih =>
    cases o with
    | nil => exact List.nil_prefix
    | cons a o =>
      rw [common]
      split
      · next h_part =>
        -- a part is shared when it is the text of the arc, and a text is that of one arc
        rw [List.take_succ_cons, List.map_cons, ← h_part, decimal_unsignedText]
        exact List.cons_prefix_cons.mpr ⟨rfl, ih o⟩
      · exact List.nil_prefix

/-- An OID that begins with the shared parts of another shares as much. By
induction on the parts. -/
theorem common_le_of_isPrefix (parts : List Bytes) {o x : List ℕ}
    (h : o.take (common parts o) <+: x) : common parts o ≤ common parts x := by
  induction parts generalizing o x with
  | nil =>
    rw [common]
    · exact Nat.zero_le _
    · simp
  | cons part parts ih =>
    cases o with
    | nil => exact Nat.zero_le _
    | cons a o =>
      by_cases h_part : unsignedText a = part
      · -- the first part is shared, and so it is with `x`, which begins with the same arc
        have h_up : ∀ y : List ℕ, common (part :: parts) (a :: y) = common parts y + 1 :=
          fun y => if_pos h_part
        rw [h_up, List.take_succ_cons] at h
        obtain ⟨y, rfl⟩ : ∃ y, x = a :: y := by
          obtain ⟨t, rfl⟩ := h
          exact ⟨_, rfl⟩
        rw [h_up, h_up]
        exact Nat.succ_le_succ (ih (List.cons_prefix_cons.mp h).2)
      · rw [common, if_neg h_part]
        exact Nat.zero_le _

/-- What is greater than a list and does not begin with it is greater than all
that do. -/
theorem append_lt_of_lt {p x y : List ℕ} (h : p < x) (h_not : ¬ p <+: x) : p ++ y < x := by
  induction p generalizing x with
  | nil => exact absurd List.nil_prefix h_not
  | cons a p ih =>
    cases x with
    | nil => exact absurd h (List.not_lt_nil _)
    | cons b x =>
      rw [List.cons_append, List.cons_lt_cons_iff]
      rcases List.cons_lt_cons_iff.mp h with h_lt | ⟨rfl, h_lt⟩
      · exact .inl h_lt
      · exact .inr ⟨rfl, ih h_lt fun h => h_not (List.cons_prefix_cons.mpr ⟨rfl, h⟩)⟩

/-- A list is at most what begins with it. -/
theorem le_of_isPrefix {p x : List ℕ} (h : p <+: x) : p ≤ x := by
  obtain ⟨t, rfl⟩ := h
  induction p with
  | nil =>
    cases t with
    | nil => exact le_rfl
    | cons a t => exact (List.nil_lt_cons a t).le
  | cons a p ih => exact List.cons_le_cons a ih

/-- **GETNEXT of an OID that is not registered** gives the next one exactly when
the OIDs that share the longest beginning with it are all greater.
`find_next_oid` goes down as long as the arcs are found, and then to the first
leaf below, which is before the OID that was asked for when the arc that is
missing is greater than that of the first child. -/
theorem getNext_iff (S : OidSet) {a : ℕ} (h : S.SharesFirst a) (q : Bytes)
    (h_q : ∀ r ∈ S.oids, q ≠ dotted r.1) :
    (∃ r, S.tree.findNextOid q = some r ∧ IsNext S q r) ↔
      ∀ x ∈ S.oids, (∀ y ∈ S.oids, common (split q (ascii ".")) y.1 ≤
        common (split q (ascii ".")) x.1) → arcsOf q < x.1 := by
  obtain ⟨o, h_o, h_find⟩ := h.findNextOid_of_forall h_q
  constructor
  · -- the answer is the least of those that share the most, so when it is greater all are
    rintro ⟨r, h_r, h_next⟩ x hx h_longest
    obtain rfl := Option.some.inj (h_find.symm.trans h_r)
    rcases h_next with ⟨o', -, h_text, h_lt, -⟩ | ⟨h_empty, -⟩
    · rw [← dotted_injective h_text] at h_lt
      exact h_lt.trans_le (h_o.least x hx (le_antisymm (h_o.longest x hx) (h_longest o h_o.mem)))
    · exact absurd h_empty (dotted_ne_nil (S.ne_nil o h_o.mem))
  · -- it is greater itself, and any greater one that is less would have to share less
    intro h_greater
    refine ⟨_, h_find, .inl ⟨o, h_o.mem, rfl, h_greater o h_o.mem h_o.longest, fun x hx h_lt => ?_⟩⟩
    by_cases h_same : common (split q (ascii ".")) x.1 = common (split q (ascii ".")) o.1
    · exact h_o.least x hx h_same
    · -- the shared parts of the closest OID decide for all that begin with them
      have h_not : ¬ o.1.take (common (split q (ascii ".")) o.1) <+: x.1 := fun h_prefix =>
        h_same (le_antisymm (h_o.longest x hx) (common_le_of_isPrefix _ h_prefix))
      have h_shared := take_common (split q (ascii ".")) o.1
      generalize h_p : o.1.take (common (split q (ascii ".")) o.1) = p at h_not h_shared
      rcases lt_trichotomy p x.1 with h_p_lt | rfl | h_p_gt
      · have h_split : o.1 = p ++ o.1.drop (common (split q (ascii ".")) o.1) := by
          rw [← h_p, List.take_append_drop]
        rw [h_split]
        exact (append_lt_of_lt h_p_lt h_not).le
      · exact absurd (List.prefix_refl _) h_not
      · exact absurd (h_p_gt.trans_le (le_of_isPrefix h_shared)) (lt_asymm h_lt)

/-- `1.3.6` and `1.5.2`. -/
def twoBranches : OidSet where
  oids := [([1, 3, 6], .staticText (ascii "a")), ([1, 5, 2], .staticText (ascii "b"))]
  ne_nil := by decide
  fit := by
    unfold ArcsFit
    decide
  apart := by decide

/-- From a node on the way, GETNEXT goes to the first OID below it. -/
theorem getNext_inner : ∃ r, twoBranches.tree.findNextOid (ascii "1.3") = some r ∧
    IsNext twoBranches (ascii "1.3") r :=
  (getNext_iff twoBranches (a := 1) ⟨by decide, by decide⟩ (ascii "1.3") (by decide +kernel)).mpr
    (by decide +kernel)

/-- After `1.4` comes `1.5.2`, but the answer is `1.3.6`. The node `1` is as far
as the text can be followed, and the search goes down to its first leaf. -/
theorem getNext_backwards :
    (∀ r ∈ twoBranches.oids, ascii "1.4" ≠ dotted r.1) ∧
      twoBranches.tree.findNextOid (ascii "1.4") = some (dotted [1, 3, 6]) ∧
      ¬ ∃ r, twoBranches.tree.findNextOid (ascii "1.4") = some r ∧
        IsNext twoBranches (ascii "1.4") r := by
  have h_q : ∀ r ∈ twoBranches.oids, ascii "1.4" ≠ dotted r.1 := by decide +kernel
  have h_find : twoBranches.tree.findNextOid (ascii "1.4") = some (dotted [1, 3, 6]) := by
    have h_shares : twoBranches.SharesFirst 1 := ⟨by decide, by decide⟩
    obtain ⟨o, h_o, h_find⟩ := h_shares.findNextOid_of_forall h_q
    -- both share one part, and the first one is smaller
    have h_oids : ∀ r ∈ twoBranches.oids, r.1 = [1, 3, 6] ∨ ¬ r.1 ≤ [1, 3, 6] := by decide +kernel
    have h_common : ∀ r ∈ twoBranches.oids, common (split (ascii "1.4") (ascii ".")) r.1 = 1 := by
      decide +kernel
    have h_first : ([1, 3, 6], .staticText (ascii "a")) ∈ twoBranches.oids := List.mem_cons_self
    have h_least := h_o.least _ h_first (by rw [h_common _ h_first, h_common _ h_o.mem])
    rw [(h_oids o h_o.mem).resolve_right (not_not.mpr h_least)] at h_find
    exact h_find
  refine ⟨h_q, h_find, ?_⟩
  rintro ⟨r, h_r, h_next⟩
  obtain rfl := Option.some.inj (h_find.symm.trans h_r)
  rcases h_next with ⟨o, -, h_text, h_lt, -⟩ | ⟨h_empty, -⟩
  · rw [← dotted_injective h_text] at h_lt
    exact absurd h_lt (by decide +kernel)
  · exact absurd h_empty (by decide +kernel)

end IscsiTarget
