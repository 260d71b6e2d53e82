import Mathlib

/-!
# Forests of paths

A forest is a list of nodes, each with a forest below it. Every node stands for one key, and
a leaf stands for the path of the keys that lead to it. `Spans path lut es` says which paths
a forest has, in order and each with the value of its leaf: `es` lists them for the forest
`lut` below the node at `path`.

The type of the nodes is arbitrary. `mk` builds a node from its whole path, its value and what
is below it, and `r path` is the order that the keys below `path` come in.

* `Spans.unique`: the paths determine the forest.
* `Spans.findIdx?`: looking for a key finds its node, and what stands left and right of it.
* `Spans.sorted`: where the keys increase, the paths do, in lexicographic order.
* `Spans.eq_of_perm`: so a rearrangement of the paths is no other list of paths.
-/

namespace Forest

variable {α κ ν : Type*}

/-- The paths that begin with a key: one, if nothing is below it. -/
def entries (a : α) (k : κ) (cs : List (List α × κ)) : List (List α × κ) :=
  if cs = [] then [([a], k)] else cs.map fun e => (a :: e.1, e.2)

theorem entries_nil (a : α) (k : κ) : entries a k [] = [([a], k)] := if_pos rfl

theorem entries_of_ne {a : α} {k : κ} {cs : List (List α × κ)} (h : cs ≠ []) :
    entries a k cs = cs.map fun e => (a :: e.1, e.2) := if_neg h

theorem entries_ne_nil (a : α) (k : κ) (cs : List (List α × κ)) : entries a k cs ≠ [] := by
  unfold entries
  split
  · exact List.cons_ne_nil _ _
  · next h => exact fun h_map => h (List.map_eq_nil_iff.mp h_map)

theorem mem_entries {a : α} {k : κ} {cs : List (List α × κ)} {e : List α × κ} :
    e ∈ entries a k cs ↔
      (cs = [] ∧ e = ([a], k)) ∨ ∃ c ∈ cs, e = (a :: c.1, c.2) := by
  by_cases h : cs = []
  · subst h
    simp [entries_nil]
  · rw [entries_of_ne h, List.mem_map]
    constructor
    · rintro ⟨c, hc, rfl⟩
      exact .inr ⟨c, hc, rfl⟩
    · rintro (⟨h_nil, -⟩ | ⟨c, hc, rfl⟩)
      · exact absurd h_nil h
      · exact ⟨c, hc, rfl⟩

/-- They all begin with it. -/
theorem head?_of_mem_entries {a : α} {k : κ} {cs : List (List α × κ)} {e : List α × κ}
    (h : e ∈ entries a k cs) : e.1.head? = some a := by
  rcases mem_entries.mp h with ⟨-, rfl⟩ | ⟨c, -, rfl⟩
  · rfl
  · rfl

/-- The forest `lut` below `path` has the paths `es`. A node comes with the
paths of its children or, when it has none, with its own; `r` holds between it
and everything behind it. -/
inductive Spans (mk : List α → κ → List ν → ν) (dflt : κ) (r : List α → α → α → Prop) :
    List α → List ν → List (List α × κ) → Prop
  | nil (path : List α) : Spans mk dflt r path [] []
  | cons {path : List α} {a : α} {k : κ} {children lut : List ν} {cs es : List (List α × κ)}
      (h_below : Spans mk dflt r (path ++ [a]) children cs) (h_value : cs ≠ [] → k = dflt)
      (h_before : ∀ e ∈ es, ∀ b ∈ e.1.head?, r path a b) (h_rest : Spans mk dflt r path lut es) :
      Spans mk dflt r path (mk (path ++ [a]) k children :: lut) (entries a k cs ++ es)

variable {mk : List α → κ → List ν → ν} {dflt : κ} {r : List α → α → α → Prop}
  {path : List α} {lut lut' : List ν} {es : List (List α × κ)}

/-! ### Paths -/

theorem Spans.nil_iff (h : Spans mk dflt r path lut es) : lut = [] ↔ es = [] := by
  cases h with
  | nil => simp
  | cons _ _ _ _ => simp [entries_ne_nil]

theorem Spans.ne_nil (h : Spans mk dflt r path lut es) {e : List α × κ} (he : e ∈ es) :
    e.1 ≠ [] := by
  induction h with
  | nil => cases he
  | cons _ _ _ _ _ ih_rest =>
    rcases List.mem_append.mp he with h_own | h_rest
    · intro h_nil
      have h_head := head?_of_mem_entries h_own
      rw [h_nil] at h_head
      cases h_head
    · exact ih_rest h_rest

/-- A path that begins with a key of the first node is a path of the first node. -/
theorem head?_ne (h_ne : ∀ path a b, r path a b → a ≠ b) {a : α}
    (h_before : ∀ e ∈ es, ∀ b ∈ e.1.head?, r path a b) {e : List α × κ} (he : e ∈ es) :
    e.1.head? ≠ some a := fun h_head => h_ne _ _ _ (h_before e he a h_head) rfl

/-- Two lists, each of which begins with what a predicate holds of and goes on
with what it does not hold of. -/
theorem append_inj_of_split {β : Type*} {p : β → Prop} {xs xs' ys ys' : List β}
    (hx : ∀ x ∈ xs, p x) (hx' : ∀ x ∈ xs', p x) (hy : ∀ y ∈ ys, ¬ p y) (hy' : ∀ y ∈ ys', ¬ p y)
    (h : xs ++ ys = xs' ++ ys') : xs = xs' ∧ ys = ys' := by
  induction xs generalizing xs' with
  | nil =>
    cases xs' with
    | nil => exact ⟨rfl, h⟩
    | cons x xs' =>
      have h_mem : x ∈ ys := by
        rw [← List.nil_append ys, h]
        exact List.mem_cons_self
      exact absurd (hx' x List.mem_cons_self) (hy x h_mem)
  | cons x xs ih =>
    cases xs' with
    | nil =>
      have h_mem : x ∈ ys' := by
        rw [← List.nil_append ys', ← h]
        exact List.mem_cons_self
      exact absurd (hx x List.mem_cons_self) (hy' x h_mem)
    | cons x' xs' =>
      obtain ⟨rfl, h_rest⟩ := List.cons.inj h
      obtain ⟨rfl, rfl⟩ := ih (fun y h_y => hx y (List.mem_cons_of_mem _ h_y))
        (fun y h_y => hx' y (List.mem_cons_of_mem _ h_y)) h_rest
      exact ⟨rfl, rfl⟩

/-- What is below a key can be read off its paths, and the value of a leaf too.
The value of an inner node is the default one, and no path tells it. -/
theorem entries_inj {a : α} {k k' : κ} {cs cs' : List (List α × κ)} (h_cs : ∀ e ∈ cs, e.1 ≠ [])
    (h_cs' : ∀ e ∈ cs', e.1 ≠ []) (h : entries a k cs = entries a k' cs') :
    cs = cs' ∧ (cs = [] → k = k') := by
  -- a leaf is not an inner node
  have h_leaf : ∀ {k k' : κ} {cs : List (List α × κ)}, (∀ e ∈ cs, e.1 ≠ []) →
      entries a k cs = [([a], k')] → cs = [] ∧ k = k' := by
    intro k k' cs h_cs h
    by_cases h_nil : cs = []
    · subst h_nil
      rw [entries_nil] at h
      exact ⟨rfl, congrArg Prod.snd (List.singleton_inj.mp h)⟩
    · rw [entries_of_ne h_nil] at h
      obtain ⟨c, rfl, h_c⟩ := List.map_eq_singleton_iff.mp h
      exact absurd (List.cons.inj (congrArg Prod.fst h_c)).2 (h_cs c List.mem_cons_self)
  by_cases h_nil : cs = []
  · subst h_nil
    rw [entries_nil] at h
    obtain ⟨rfl, h_k⟩ := h_leaf h_cs' h.symm
    exact ⟨rfl, fun _ => h_k.symm⟩
  · by_cases h_nil' : cs' = []
    · subst h_nil'
      rw [entries_nil] at h
      exact absurd (h_leaf h_cs h).1 h_nil
    · rw [entries_of_ne h_nil, entries_of_ne h_nil'] at h
      refine ⟨List.map_injective_iff.mpr (fun c c' h_c => ?_) h, fun h => absurd h h_nil⟩
      obtain ⟨h_path, h_value⟩ := Prod.mk.inj h_c
      exact Prod.ext (List.cons.inj h_path).2 h_value

/-- **The paths determine the forest.** By induction on the first derivation:
the first key is the head of the first path, and its paths are those that begin
with it. -/
theorem Spans.unique (h_ne : ∀ path a b, r path a b → a ≠ b) (h : Spans mk dflt r path lut es)
    (h' : Spans mk dflt r path lut' es) : lut = lut' := by
  induction h generalizing lut' with
  | nil => exact (h'.nil_iff.mpr rfl).symm
  | @cons path a k children lut cs es h_below h_value h_before h_rest ih_below ih_rest =>
    generalize h_all : entries a k cs ++ es = all at h'
    cases h' with
    | nil => exact absurd h_all (by simp [entries_ne_nil])
    | @cons _ a' k' children' lut₁ cs' es' h_below' h_value' h_before' h_rest' =>
      -- both begin with the same key
      have h_a : a = a' := by
        obtain ⟨e, own, h_own⟩ := List.exists_cons_of_ne_nil (entries_ne_nil a k cs)
        obtain ⟨e', own', h_own'⟩ := List.exists_cons_of_ne_nil (entries_ne_nil a' k' cs')
        have h_first : e = e' := by
          rw [h_own, h_own', List.cons_append, List.cons_append] at h_all
          exact (List.cons.inj h_all).1
        have h_e := head?_of_mem_entries (h_own ▸ List.mem_cons_self)
        have h_e' := head?_of_mem_entries (h_own' ▸ List.mem_cons_self)
        rw [h_first, h_e'] at h_e
        exact (Option.some.inj h_e).symm
      subst h_a
      obtain ⟨h_own, rfl⟩ := append_inj_of_split (fun _ => head?_of_mem_entries)
        (fun _ => head?_of_mem_entries) (fun _ => head?_ne h_ne h_before)
        (fun _ => head?_ne h_ne h_before') h_all
      obtain rfl := ih_rest h_rest'
      -- and have the same below it
      obtain ⟨rfl, h_k⟩ := entries_inj (fun _ => h_below.ne_nil) (fun _ => h_below'.ne_nil) h_own
      obtain rfl := ih_below h_below'
      by_cases h_cs : cs = []
      · rw [h_k h_cs]
      · rw [h_value h_cs, h_value' h_cs]

/-! ### Order -/

theorem pairwise_entries [LT α] {a : α} {k : κ} {cs : List (List α × κ)}
    (h : cs.Pairwise fun e e' => e.1 < e'.1) :
    (entries a k cs).Pairwise fun e e' => e.1 < e'.1 := by
  by_cases h_nil : cs = []
  · subst h_nil
    rw [entries_nil]
    exact List.pairwise_singleton _ _
  · rw [entries_of_ne h_nil, List.pairwise_map]
    exact h.imp fun h_c => List.cons_lt_cons_iff.mpr (.inr ⟨rfl, h_c⟩)

/-- Where the keys increase, the paths do. By induction on the derivation: the
paths of a node all begin with its key. -/
theorem Spans.sorted [LT α] (h : Spans mk dflt r path lut es)
    (h_lt : ∀ p a b, path <+: p → r p a b → a < b) : es.Pairwise fun e e' => e.1 < e'.1 := by
  induction h with
  | nil => exact .nil
  | @cons path a k children lut cs es h_below h_value h_before h_rest ih_below ih_rest =>
    rw [List.pairwise_append]
    refine ⟨pairwise_entries (ih_below fun p b c h_p => h_lt p b c
      ((List.prefix_append _ _).trans h_p)), ih_rest h_lt, fun e he e' he' => ?_⟩
    -- the first keys decide
    obtain ⟨b, q', h_b⟩ := List.exists_cons_of_ne_nil (h_rest.ne_nil he')
    obtain ⟨q, h_q⟩ := List.head?_eq_some_iff.mp (head?_of_mem_entries he)
    have h_r := h_before e' he' b (by rw [h_b]; rfl)
    rw [h_q, h_b]
    exact List.cons_lt_cons_iff.mpr (.inl (h_lt path a b (List.prefix_refl _) h_r))

/-- As `append_inj_of_split`, for lists that are rearranged. A property that
tells the two parts apart is what splits the rearrangement. -/
theorem perm_of_split {β : Type*} {p : β → Bool} {xs xs' ys ys' : List β}
    (hx : ∀ x ∈ xs, p x = true) (hx' : ∀ x ∈ xs', p x = true) (hy : ∀ y ∈ ys, p y = false)
    (hy' : ∀ y ∈ ys', p y = false) (h : (xs ++ ys).Perm (xs' ++ ys')) :
    xs.Perm xs' ∧ ys.Perm ys' := by
  have h_in : ∀ {zs : List β}, (∀ z ∈ zs, p z = true) →
      zs.filter p = zs ∧ zs.filter (fun b => !p b) = [] := fun h =>
    ⟨List.filter_eq_self.mpr h, List.filter_eq_nil_iff.mpr (by simpa using h)⟩
  have h_out : ∀ {zs : List β}, (∀ z ∈ zs, p z = false) →
      zs.filter p = [] ∧ zs.filter (fun b => !p b) = zs := fun h =>
    ⟨List.filter_eq_nil_iff.mpr (by simpa using h), List.filter_eq_self.mpr (by simpa using h)⟩
  have h_yes := h.filter p
  have h_no := h.filter fun b => !p b
  rw [List.filter_append, List.filter_append, (h_in hx).1, (h_in hx').1, (h_out hy).1,
    (h_out hy').1, List.append_nil, List.append_nil] at h_yes
  rw [List.filter_append, List.filter_append, (h_in hx).2, (h_in hx').2, (h_out hy).2,
    (h_out hy').2, List.nil_append, List.nil_append] at h_no
  exact ⟨h_yes, h_no⟩

/-- Two forests with the same paths, whose nodes come in the same order at the
top and in the order of their keys below it, list their paths in the same order.
`f` tells the nodes at the top apart. -/
theorem Spans.eq_of_perm [LinearOrder α] {β : Type*} {f : ν → β} {es' : List (List α × κ)}
    (h_ne : ∀ path a b, r path a b → a ≠ b)
    (h_lt : ∀ p a b, path.length < p.length → r p a b → a < b)
    (hf : ∀ a b k k' cs cs', f (mk (path ++ [a]) k cs) = f (mk (path ++ [b]) k' cs') → a = b)
    (h : Spans mk dflt r path lut es) (h' : Spans mk dflt r path lut' es')
    (h_tops : lut.map f = lut'.map f) (h_perm : es.Perm es') : es = es' := by
  induction h generalizing lut' es' with
  | nil => exact (List.nil_perm.mp h_perm).symm
  | @cons path a k children lut cs es h_below h_value h_before h_rest _ ih_rest =>
    cases h' with
    | nil => exact absurd h_tops (List.cons_ne_nil _ _)
    | @cons _ a' k' children' lut₁ cs' es₁ h_below' h_value' h_before' h_rest' =>
      obtain ⟨h_node, h_tops'⟩ := List.cons.inj h_tops
      obtain rfl := hf _ _ _ _ _ _ h_node
      obtain ⟨h_own, h_es⟩ := perm_of_split (p := fun e => decide (e.1.head? = some a))
        (fun _ he => decide_eq_true (head?_of_mem_entries he))
        (fun _ he => decide_eq_true (head?_of_mem_entries he))
        (fun _ he => decide_eq_false (head?_ne h_ne h_before he))
        (fun _ he => decide_eq_false (head?_ne h_ne h_before' he)) h_perm
      obtain rfl := ih_rest h_lt hf h_rest' h_tops' h_es
      -- below one key the order is that of the keys
      have h_deeper : ∀ p b c, path ++ [a] <+: p → r p b c → b < c := by
        intro p b c h_p
        refine h_lt p b c (lt_of_lt_of_le ?_ h_p.length_le)
        rw [List.length_append, List.length_singleton]
        exact Nat.lt_succ_self _
      have h_eq : entries a k cs = entries a k' cs' :=
        List.Perm.eq_of_pairwise (fun e e' _ _ h_e h_e' => absurd h_e' (lt_asymm h_e))
          (pairwise_entries (h_below.sorted h_deeper)) (pairwise_entries (h_below'.sorted h_deeper))
          h_own
      rw [h_eq]

/-! ### Looking for a key -/

/-- Node `i` of the forest stands for the key `a`: the paths left of it, its own
and the paths right of it. -/
structure At (mk : List α → κ → List ν → ν) (dflt : κ) (r : List α → α → α → Prop) (path : List α)
    (lut : List ν) (es : List (List α × κ)) (i : ℕ) (a : α) (k : κ) (children : List ν)
    (cs pre post : List (List α × κ)) : Prop where
  node : lut[i]? = some (mk (path ++ [a]) k children)
  below : Spans mk dflt r (path ++ [a]) children cs
  value : cs ≠ [] → k = dflt
  own : es = pre ++ entries a k cs ++ post
  right : Spans mk dflt r path (lut.drop (i + 1)) post
  pre_before : ∀ e ∈ pre, ∀ b ∈ e.1.head?, r path b a
  post_before : ∀ e ∈ post, ∀ b ∈ e.1.head?, r path a b
  /-- With something else below it, the forest is otherwise the same. -/
  replace : ∀ k' children' cs', Spans mk dflt r (path ++ [a]) children' cs' →
    (cs' ≠ [] → k' = dflt) →
    Spans mk dflt r path (lut.set i (mk (path ++ [a]) k' children'))
      (pre ++ entries a k' cs' ++ post)

/-- **Looking for a key.** If it is not found, no path begins with it. If it is,
the forest falls into what is in front, the node, and what is behind. -/
theorem Spans.findIdx? (h : Spans mk dflt r path lut es) {p : ν → Bool} {key : α → Prop}
    (hp : ∀ a k cs, p (mk (path ++ [a]) k cs) = true ↔ key a) :
    (lut.findIdx? p = none ∧ ∀ e ∈ es, ∀ a ∈ e.1.head?, ¬ key a) ∨
      ∃ i a k children cs pre post, lut.findIdx? p = some i ∧ key a ∧
        At mk dflt r path lut es i a k children cs pre post := by
  induction h with
  | nil => exact .inl ⟨rfl, fun e he => by cases he⟩
  | @cons path a k children lut cs es h_below h_value h_before h_rest ih_below ih_rest =>
    by_cases h_key : key a
    · refine .inr ⟨0, a, k, children, cs, [], es, ?_, h_key, ?_⟩
      · rw [List.findIdx?_cons, if_pos ((hp a k children).mpr h_key)]
      · exact ⟨rfl, h_below, h_value, by simp, h_rest,
          fun e he => absurd he List.not_mem_nil, h_before,
          fun k' children' cs' h_below' h_value' => .cons h_below' h_value' h_before h_rest⟩
    · have h_p : ¬ p (mk (path ++ [a]) k children) = true := fun h_p => h_key ((hp _ _ _).mp h_p)
      rw [List.findIdx?_cons, if_neg h_p]
      rcases ih_rest hp with
        ⟨h_none, h_no⟩ | ⟨i, b, k', children', cs', pre, post, h_some, h_b, h_at⟩
      · refine .inl ⟨by rw [h_none]; rfl, fun e he b hb => ?_⟩
        rcases List.mem_append.mp he with h_own | h_rest
        · rw [head?_of_mem_entries h_own] at hb
          cases hb
          exact h_key
        · exact h_no e h_rest b hb
      · refine .inr ⟨i + 1, b, k', children', cs', entries a k cs ++ pre, post,
          by rw [h_some]; rfl, h_b, ?_⟩
        -- the paths of the node that was found are among the rest
        have h_ab : r path a b := by
          obtain ⟨e, own, h_own⟩ := List.exists_cons_of_ne_nil (entries_ne_nil b k' cs')
          have h_e : e ∈ entries b k' cs' := h_own ▸ List.mem_cons_self
          refine h_before e ?_ b (head?_of_mem_entries h_e)
          rw [h_at.own]
          exact List.mem_append_left _ (List.mem_append_right _ h_e)
        refine ⟨h_at.node, h_at.below, h_at.value, ?_, h_at.right, fun e he c hc => ?_,
          h_at.post_before, fun k₁ children₁ cs₁ h_below₁ h_value₁ => ?_⟩
        · rw [h_at.own]
          simp only [List.append_assoc]
        · rcases List.mem_append.mp he with h_own | h_pre
          · rw [head?_of_mem_entries h_own] at hc
            cases hc
            exact h_ab
          · exact h_at.pre_before e h_pre c hc
        · rw [List.append_assoc, List.append_assoc, ← List.append_assoc pre]
          refine .cons h_below h_value (fun e he c hc => ?_)
            (h_at.replace k₁ children₁ cs₁ h_below₁ h_value₁)
          rcases List.mem_append.mp he with h_left | h_post
          · rcases List.mem_append.mp h_left with h_pre | h_own
            · refine h_before e ?_ c hc
              rw [h_at.own]
              exact List.mem_append_left _ (List.mem_append_left _ h_pre)
            · rw [head?_of_mem_entries h_own] at hc
              cases hc
              exact h_ab
          · refine h_before e ?_ c hc
            rw [h_at.own]
            exact List.mem_append_right _ h_post

end Forest
