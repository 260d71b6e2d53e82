import IscsiTarget.Model.SnmpData

/-!
# The nodes of the tree

What the lookups of `snmp_data` return belongs to a node of the tree (`findByOid_inTree`,
`findNextOid_inTree`), and a node of the tree comes from a registration: it is the node of
the registered OID, or one without data on the way to it. So whatever holds of all the OIDs
and data that are registered (`Holds`) holds of all the tree can answer with.
-/

namespace IscsiTarget

open SnmpDataType SnmpData

/-! ### Nodes -/

/-- `n` is a node of the forest `lut`, at whatever depth. -/
inductive InTree (n : SnmpDataType) : List SnmpDataType → Prop
  | root {lut : List SnmpDataType} (h : n ∈ lut) : InTree n lut
  | under {lut : List SnmpDataType} {m : SnmpDataType} (h_m : m ∈ lut)
      (h : InTree n m.getChildren) : InTree n lut

/-- `P` holds of the OID and the data of every node. -/
def Holds (P : Bytes → SnmpKind → Prop) (lut : List SnmpDataType) : Prop :=
  ∀ n, InTree n lut → P n.getOid n.kind

/-- More trees have more nodes. -/
theorem InTree.mono {n : SnmpDataType} {lut lut' : List SnmpDataType} (h : InTree n lut)
    (h_sub : ∀ m ∈ lut, m ∈ lut') : InTree n lut' := by
  cases h with
  | root h => exact .root (h_sub n h)
  | under h_m h => exact .under (h_sub _ h_m) h

/-- A forest holds `P` when its trees do, each at its root and below it. -/
theorem holds_iff {P : Bytes → SnmpKind → Prop} {lut : List SnmpDataType} :
    Holds P lut ↔ ∀ m ∈ lut, P m.getOid m.kind ∧ Holds P m.getChildren := by
  refine ⟨fun h m h_m => ⟨h m (.root h_m), fun n h_n => h n (.under h_m h_n)⟩, fun h n h_n => ?_⟩
  cases h_n with
  | root h_n => exact (h n h_n).1
  | under h_m h_n => exact (h _ h_m).2 n h_n

/-! ### Registering -/

theorem mem_insertNode {e n : SnmpDataType} {lut : List SnmpDataType}
    (h : n ∈ insertNode e lut) : n = e ∨ n ∈ lut := by
  induction lut with
  | nil => exact .inl (List.mem_singleton.mp h)
  | cons m lut ih =>
    rw [insertNode] at h
    split at h
    · exact List.mem_cons.mp h
    · rcases List.mem_cons.mp h with rfl | h
      · exact .inr List.mem_cons_self
      · rcases ih h with h | h
        · exact .inl h
        · exact .inr (List.mem_cons_of_mem m h)

/-- A node of a list with one node changed is a node of the list, or the one
that has been changed. -/
theorem mem_modify {f : SnmpDataType → SnmpDataType} {n : SnmpDataType} {lut : List SnmpDataType}
    {idx : ℕ} (h : n ∈ lut.modify idx f) : n ∈ lut ∨ ∃ m ∈ lut, n = f m := by
  -- on the list, down to the node that is changed
  induction lut generalizing idx with
  | nil => exact absurd h (by simp)
  | cons m lut ih =>
    cases idx with
    | zero =>
      rw [List.modify_zero_cons] at h
      rcases List.mem_cons.mp h with h | h
      · exact .inr ⟨m, List.mem_cons_self, h⟩
      · exact .inl (List.mem_cons_of_mem m h)
    | succ idx =>
      rw [List.modify_succ_cons] at h
      rcases List.mem_cons.mp h with rfl | h
      · exact .inl List.mem_cons_self
      · rcases ih h with h | ⟨m', h_m', h⟩
        · exact .inl (List.mem_cons_of_mem m h)
        · exact .inr ⟨m', List.mem_cons_of_mem m h_m', h⟩

/-- The OIDs on the way down the parts. -/
def curOids : Bytes → List Bytes → List Bytes
  | _, [] => []
  | cur, part :: parts => curOid cur part :: curOids (curOid cur part) parts

theorem registerLoop_holds {P : Bytes → SnmpKind → Prop} {e : SnmpKind} {parts : List Bytes}
    {cur : Bytes} {lut : List SnmpDataType} (h_lut : Holds P lut)
    (h_new : ∀ oid ∈ curOids cur parts, P oid e ∧ P oid .plain) :
    Holds P (registerLoop e parts cur lut) := by
  -- on the parts that are left: the nodes on the way are plain, the last one is the new one
  induction parts generalizing cur lut with
  | nil => exact h_lut
  | cons part parts ih =>
    obtain ⟨h_e, h_plain⟩ := h_new _ List.mem_cons_self
    have h_rest : ∀ oid ∈ curOids (curOid cur part) parts, P oid e ∧ P oid .plain :=
      fun oid h => h_new oid (List.mem_cons_of_mem _ h)
    have h_nil : Holds P [] := holds_iff.mpr fun m h_m => absurd h_m (by simp)
    rw [registerLoop]
    dsimp only
    split
    · -- a new node, with the rest of the path below it
      refine holds_iff.mpr fun m h_m => ?_
      rcases mem_insertNode h_m with rfl | h_m
      · refine ⟨?_, ih h_nil h_rest⟩
        show P (curOid cur part) (if parts = [] then e else .plain)
        split
        · exact h_e
        · exact h_plain
      · exact holds_iff.mp h_lut m h_m
    · -- the node is there already
      refine holds_iff.mpr fun m h_m => ?_
      rcases mem_modify h_m with h_m | ⟨m', h_m', rfl⟩
      · exact holds_iff.mp h_lut m h_m
      · obtain ⟨h_root, h_below⟩ := holds_iff.mp h_lut m' h_m'
        cases m'
        exact ⟨h_root, ih h_below h_rest⟩

/-- What holds of everything that is registered holds of the whole tree. -/
theorem initSnmp_holds {P : Bytes → SnmpKind → Prop} (date : BuildDate)
    (h : ∀ r ∈ initRegistrations date, ∀ oid ∈ curOids [] (split (ascii r.1) (ascii ".")),
      P oid r.2 ∧ P oid .plain) : Holds P (initSnmp date).data := by
  unfold initSnmp
  have h_nil : Holds P ({} : SnmpData).data := holds_iff.mpr fun m h_m => absurd h_m (by simp)
  generalize ({} : SnmpData) = sd at h_nil
  generalize initRegistrations date = rs at h
  induction rs generalizing sd with
  | nil => exact h_nil
  | cons r rs ih =>
    refine ih _ ?_ fun r' h_r' => h r' (List.mem_cons_of_mem r h_r')
    exact registerLoop_holds h_nil (h r List.mem_cons_self)

/-! ### Looking up -/

theorem findByLoop_inTree {readings : SnmpReadings} {parts : List Bytes} {cur : Bytes}
    {lut : List SnmpDataType} {rc : Option SnmpElem}
    (h : findByLoop readings parts cur lut = some rc) :
    ∃ n, InTree n lut ∧ rc = n.kind.getData readings := by
  -- on the parts that are left, one level of the tree for each
  induction parts generalizing cur lut with
  | nil => exact absurd h (by rw [findByLoop]; simp)
  | cons part parts ih =>
    rw [findByLoop] at h
    split at h
    · cases h
    · next n h_find =>
      have h_n : n ∈ lut := List.mem_of_find?_eq_some h_find
      split at h
      · cases h
        exact ⟨n, .root h_n, rfl⟩
      · obtain ⟨n', h_n', h_rc⟩ := ih h
        exact ⟨n', .under h_n h_n', h_rc⟩

/-- `find_by_oid` returns the data of a node. -/
theorem findByOid_inTree {sd : SnmpData} {readings : SnmpReadings} {oid : Bytes}
    {rc : Option SnmpElem} (h : sd.findByOid readings oid = some rc) :
    ∃ n, InTree n sd.data ∧ rc = n.kind.getData readings :=
  findByLoop_inTree h

/-- Every node the stack names is a node of the tree. -/
def BranchIn (lut : List SnmpDataType) (branch : Branch) : Prop :=
  ∀ x ∈ branch, ∀ n ∈ x.1, InTree n lut

theorem BranchIn.cons {lut : List SnmpDataType} {branch : Branch} {parent : Option SnmpDataType}
    {idx : ℕ} (h_parent : ∀ n ∈ parent, InTree n lut) (h : BranchIn lut branch) :
    BranchIn lut ((parent, idx) :: branch) := by
  intro x h_x
  rcases List.mem_cons.mp h_x with rfl | h_x
  · exact h_parent
  · exact h x h_x

/-- A child of a node of the tree is one. -/
theorem InTree.child {lut : List SnmpDataType} {n m : SnmpDataType} (h : InTree n lut)
    (h_m : m ∈ n.getChildren) : InTree m lut := by
  induction h with
  | root h => exact .under h (.root h_m)
  | under h_k _ ih => exact .under h_k ih

theorem matchLoop_inTree {all : List SnmpDataType} {parts : List Bytes} {cur : Bytes}
    {parent : Option SnmpDataType} {lut : List SnmpDataType} {branch : Branch}
    (h_parent : ∀ n ∈ parent, InTree n all) (h_lut : ∀ n ∈ lut, InTree n all)
    (h_branch : BranchIn all branch) :
    (∀ n ∈ (matchLoop parts cur parent lut branch).1, InTree n all) ∧
    (∀ n ∈ (matchLoop parts cur parent lut branch).2.1, InTree n all) ∧
    BranchIn all (matchLoop parts cur parent lut branch).2.2 := by
  -- what the loop has reached is in the tree, and so is the way there
  induction parts generalizing cur parent lut branch with
  | nil => exact ⟨h_parent, h_lut, h_branch⟩
  | cons part parts ih =>
    rw [matchLoop]
    split
    · exact ⟨h_parent, h_lut, h_branch⟩
    · split
      · exact ⟨h_parent, h_lut, h_branch⟩
      · next n h_n =>
        have h_mem := h_lut n (List.mem_of_getElem? h_n)
        refine ih ?_ (fun m h_m => h_mem.child h_m) (h_branch.cons h_parent)
        intro m h_m
        cases h_m
        exact h_mem

theorem descendLoop_inTree {all : List SnmpDataType} (parent : Option SnmpDataType)
    (lut : List SnmpDataType) (branch : Branch) (h_parent : ∀ n ∈ parent, InTree n all)
    (h_lut : ∀ n ∈ lut, InTree n all) (h_branch : BranchIn all branch) :
    (∀ n ∈ (descendLoop parent lut branch).1, InTree n all) ∧
    BranchIn all (descendLoop parent lut branch).2 := by
  match lut with
  | [] =>
    rw [descendLoop]
    exact ⟨h_parent, h_branch⟩
  | .node oid oidIdx kind children :: rest =>
    rw [descendLoop]
    have h_mem := h_lut _ List.mem_cons_self
    refine descendLoop_inTree _ children _ ?_ (fun m h_m => h_mem.child h_m)
      (h_branch.cons h_parent)
    intro m h_m
    cases h_m
    exact h_mem

theorem firstLeaf_inTree {all : List SnmpDataType} (n : SnmpDataType) (h : InTree n all) :
    InTree (firstLeaf n) all := by
  match n with
  | .node oid oidIdx kind [] => exact h
  | .node oid oidIdx kind (m :: children) =>
    rw [firstLeaf]
    exact firstLeaf_inTree m (h.child List.mem_cons_self)

theorem siblingLoop_inTree {all : List SnmpDataType} {branch : Branch} (h : BranchIn all branch) :
    siblingLoop branch = [] ∨ ∃ n, InTree n all ∧ siblingLoop branch = n.getOid := by
  -- up the way the loop has come
  induction branch with
  | nil => exact .inl rfl
  | cons x branch ih =>
    obtain ⟨parent, index⟩ := x
    cases parent with
    | none => exact .inl rfl
    | some element =>
      have h_element : InTree element all := h _ List.mem_cons_self element rfl
      rw [siblingLoop]
      split
      · next n h_n =>
        exact .inr ⟨_, firstLeaf_inTree n (h_element.child (List.mem_of_getElem? h_n)), rfl⟩
      · exact ih fun y h_y => h y (List.mem_cons_of_mem _ h_y)

/-- `find_next_oid` returns nothing or the OID of a node. All the nodes it has
on its stack come from the tree. -/
theorem findNextOid_inTree {sd : SnmpData} {oid next : Bytes}
    (h : sd.findNextOid oid = some next) :
    next = [] ∨ ∃ n, InTree n sd.data ∧ next = n.getOid := by
  unfold findNextOid at h
  obtain ⟨h_parent, h_lut, h_branch⟩ := @matchLoop_inTree sd.data (split oid (ascii "."))
    [] none sd.data []
    (fun n h_n => by cases h_n) (fun n h_n => .root h_n) (fun x h_x => absurd h_x (by simp))
  generalize matchLoop (split oid (ascii ".")) [] none sd.data [] = m at h h_parent h_lut h_branch
  obtain ⟨parent, lut, branch⟩ := m
  -- the second loop starts where the first one has stopped
  obtain ⟨h_leaf, h_branch⟩ := descendLoop_inTree parent lut branch h_parent h_lut h_branch
  dsimp only at h
  generalize descendLoop parent lut branch = d at h h_leaf h_branch
  obtain ⟨leaf, branch⟩ := d
  cases leaf with
  | none => cases h
  | some leaf =>
    have h_mem := h_leaf leaf rfl
    dsimp only at h
    split at h
    · cases h
      exact .inr ⟨leaf, h_mem, rfl⟩
    · cases h
      -- the leaf is the one that was asked for, so the third loop looks for the next one
      refine siblingLoop_inTree (h_branch.cons fun n h_n => ?_)
      cases h_n
      exact h_mem

/-! ### An empty tree -/

/-- Once there is a node, the loops of `find_next_oid` keep one. -/
theorem isSome_matchLoop (parts : List Bytes) (cur : Bytes) (n : SnmpDataType)
    (lut : List SnmpDataType) (branch : Branch) :
    (matchLoop parts cur (some n) lut branch).1.isSome := by
  induction parts generalizing cur n lut branch with
  | nil => rfl
  | cons part parts ih =>
    rw [matchLoop]
    split
    · rfl
    · split
      · rfl
      · exact ih _ _ _ _

theorem isSome_descendLoop (n : SnmpDataType) (lut : List SnmpDataType) (branch : Branch) :
    (descendLoop (some n) lut branch).1.isSome := by
  match lut with
  | [] =>
    rw [descendLoop]
    rfl
  | .node oid oidIdx kind children :: rest =>
    rw [descendLoop]
    exact isSome_descendLoop _ children _

/-- `find_next_oid` follows no null pointer in a tree that has a node. The loops
go down to a leaf, and there is one. -/
theorem isSome_findNextOid {sd : SnmpData} (h : sd.data ≠ []) (oid : Bytes) :
    (sd.findNextOid oid).isSome := by
  obtain ⟨⟨oid₀, oidIdx, kind, children⟩, rest, h_data⟩ := List.exists_cons_of_ne_nil h
  have h_leaf : ∀ m, m = matchLoop (split oid (ascii ".")) [] none sd.data [] →
      (descendLoop m.1 m.2.1 m.2.2).1.isSome := by
    rintro ⟨parent, lut, branch⟩ h_m
    cases parent with
    | some n => exact isSome_descendLoop n lut branch
    | none =>
      -- no part was found, so the search is still at the top
      have h_lut : lut = sd.data := by
        cases h_parts : split oid (ascii ".") with
        | nil =>
          rw [h_parts, matchLoop] at h_m
          exact congrArg (fun m => m.2.1) h_m
        | cons part parts =>
          rw [h_parts, matchLoop] at h_m
          split at h_m
          · exact congrArg (fun m => m.2.1) h_m
          · split at h_m
            · exact congrArg (fun m => m.2.1) h_m
            · next n h_n =>
              have h_some := congrArg (fun m => m.1.isSome) h_m
              dsimp only at h_some
              rw [isSome_matchLoop] at h_some
              cases h_some
      rw [h_lut, h_data, descendLoop]
      exact isSome_descendLoop _ children _
  have h_some := h_leaf _ rfl
  unfold findNextOid
  generalize matchLoop (split oid (ascii ".")) [] none sd.data [] = m at h_some ⊢
  obtain ⟨parent, lut, branch⟩ := m
  dsimp only at h_some ⊢
  generalize descendLoop parent lut branch = d at h_some ⊢
  obtain ⟨leaf, branch⟩ := d
  cases leaf with
  | none => cases h_some
  | some leaf =>
    dsimp only
    split <;> rfl

end IscsiTarget
