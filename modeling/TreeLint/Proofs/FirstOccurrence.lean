import TreeLint.Proofs.Replacing

namespace TreeLint

namespace Node

variable {m n new result root target : Node} {p q : Path}

/-- The positions of a tree in pre-order. -/
def places (n : Node) : List Path :=
  n.fold fun _ shape => [] :: shape.children.zipIdx.flatMap fun (ps, i) => ps.map (i :: ·)

theorem places_eq (n : Node) : n.places =
    [] :: n.children.zipIdx.flatMap fun (c, i) => c.places.map (i :: ·) := by
  rw [places, fold_eq, Shape.children_map, List.zipIdx_map, List.flatMap_map]
  rfl

theorem subtree?_cons_of_mem_zipIdx {c : Node} {i : Nat} (h : (c, i) ∈ n.children.zipIdx) :
    n.subtree? (i :: p) = c.subtree? p := by
  rw [subtree?_cons, List.mem_zipIdx_iff_getElem?.1 h, Option.bind_some]

theorem map_subtree?_places (n : Node) : n.places.map n.subtree? = n.preorder.map some := by
  induction n using induction_children with
  | h n ih =>
    have hchild : ∀ x ∈ n.children.zipIdx,
        (x.1.places.map (x.2 :: ·)).map n.subtree? = x.1.preorder.map some := by
      intro x hx
      rw [← ih x.1 (List.fst_mem_of_mem_zipIdx hx), List.map_map]
      exact List.map_congr_left fun p _ => subtree?_cons_of_mem_zipIdx hx
    rw [places_eq, preorder_eq, List.map_cons, List.map_cons, List.map_flatMap, List.map_flatMap]
    congr 1
    rw [← List.zipIdx_map_fst 0 n.children, List.flatMap_map, List.zipIdx_map_fst]
    exact List.flatMap_congr hchild

theorem exists_mem_places (h : m ∈ n.preorder) : ∃ p ∈ n.places, n.subtree? p = some m := by
  have hsome : some m ∈ n.places.map n.subtree? := by
    rw [map_subtree?_places]
    exact List.mem_map_of_mem h
  exact List.mem_map.1 hsome

/-- Where children lie within their parents, the search enters every child that holds the target. -/
theorem Contained.pathTo?_eq (h : root.Contained) (target : Node) :
    pathTo? target root = root.places.find? fun p => root.subtree? p == some target := by
  induction root using induction_children with
  | h n ih =>
    rw [Node.pathTo?_eq, places_eq, List.find?_cons, subtree?]
    by_cases hn : n = target
    · simp [hn]
    · have hself : (some n == some target) = false := by simpa using hn
      rw [if_neg hn, hself, List.find?_flatMap]
      apply findSome?_congr
      rintro ⟨c, i⟩ hci
      have hc : c ∈ n.children := List.fst_mem_of_mem_zipIdx hci
      have hbelow : (fun p => n.subtree? p == some target) ∘ (i :: ·) =
          fun p => c.subtree? p == some target := by
        funext p
        rw [Function.comp_apply, subtree?_cons_of_mem_zipIdx hci]
      dsimp only
      rw [List.find?_map, hbelow, ← ih c hc (h.child hc)]
      split
      · rfl
      · -- The search passes over this child, and its span shows that the target is not in it.
        rename_i hspan
        have hnot : target ∉ c.preorder := fun hmem => hspan ((h.child hc).within hmem)
        rw [pathTo?_eq_none hnot, Option.map_none]

theorem Contained.exists_pathTo? (h : root.Contained) (ht : target ∈ root.preorder) :
    ∃ p, pathTo? target root = some p := by
  obtain ⟨p, hp, hsubtree⟩ := exists_mem_places ht
  rw [h.pathTo?_eq, ← Option.isSome_iff_exists, List.find?_isSome]
  exact ⟨p, hp, beq_iff_eq.2 hsubtree⟩

theorem pairwise_preorder_child {R : Node → Node → Prop} {c : Node} (h : n.preorder.Pairwise R)
    (hc : c ∈ n.children) : c.preorder.Pairwise R := by
  rw [preorder_eq, List.pairwise_cons, List.pairwise_flatMap] at h
  exact h.2.1 c hc

theorem subtree?_cons_ne {R : Node → Node → Prop} {i : Nat} (h : n.preorder.Pairwise R)
    (hn : ¬ R n n) : n.subtree? (i :: p) ≠ some n := by
  intro hp
  obtain ⟨c, hc, hp⟩ := Option.bind_eq_some_iff.1 hp
  rw [preorder_eq, List.pairwise_cons] at h
  refine hn (h.1 n (List.mem_flatMap.2 ⟨c, List.mem_of_getElem? hc, ?_⟩))
  exact mem_preorder_of_subtree? hp

/-- Where a relation between a node and the later ones does not hold of a node and itself, the node
stands at one position only. -/
theorem place_unique_of_pairwise {R : Node → Node → Prop} (h : n.preorder.Pairwise R)
    (hm : ¬ R m m) (hp : n.subtree? p = some m) (hq : n.subtree? q = some m) : p = q := by
  induction p generalizing n q with
  | nil =>
    cases hp
    cases q with
    | nil => rfl
    | cons j q => exact absurd hq (subtree?_cons_ne h hm)
  | cons i p ih =>
    cases q with
    | nil =>
      cases hq
      exact absurd hp (subtree?_cons_ne h hm)
    | cons j q =>
      obtain ⟨c, hc, hpc⟩ := Option.bind_eq_some_iff.1 hp
      obtain ⟨d, hd, hqd⟩ := Option.bind_eq_some_iff.1 hq
      obtain ⟨hi, hic⟩ := List.getElem?_eq_some_iff.1 hc
      obtain ⟨hj, hjd⟩ := List.getElem?_eq_some_iff.1 hd
      have hmc : m ∈ c.preorder := mem_preorder_of_subtree? hpc
      have hmd : m ∈ d.preorder := mem_preorder_of_subtree? hqd
      have hchildren := h
      rw [preorder_eq, List.pairwise_cons, List.pairwise_flatMap, List.pairwise_iff_getElem]
        at hchildren
      -- In two different children it would come before itself.
      rcases Nat.lt_trichotomy i j with hij | rfl | hji
      · exact absurd (hchildren.2.2 i j hi hj hij m (hic ▸ hmc) m (hjd ▸ hmd)) hm
      · obtain rfl : c = d := hic.symm.trans hjd
        rw [ih (pairwise_preorder_child h (List.mem_of_getElem? hc)) hpc hqd]
      · exact absurd (hchildren.2.2 j i hj hi hji m (hjd ▸ hmd) m (hic ▸ hmc)) hm

/-- The tree with a new subtree at a position. The nodes above it keep all but that subtree, and
what lies neither above nor below it is as it was. -/
structure ReplacedAt (root : Node) (p : Path) (new result : Node) : Prop where
  put : result.subtree? p = some new
  beside : ∀ q, ¬ p <+: q → ¬ q <+: p → result.subtree? q = root.subtree? q
  above : ∀ q, q <+: p → q ≠ p → ∃ m m', root.subtree? q = some m ∧ result.subtree? q = some m' ∧
    m'.kind = m.kind ∧ m'.span = m.span ∧ m'.shape.form = m.shape.form ∧
    m'.children.length = m.children.length

theorem ReplacedAt.child {c d : Node} {i : Nat} (h : ReplacedAt c p new d)
    (hc : n.children[i]? = some c) (hm : n.withChild? i d = some m) :
    ReplacedAt n (i :: p) new m := by
  obtain ⟨hspan, hform, hchildren⟩ := withChild?_eq_some hm
  have hi : i < n.children.length := (List.getElem?_eq_some_iff.1 hc).1
  have hsubtree (q : Path) : m.subtree? (i :: q) = d.subtree? q := by
    rw [subtree?_cons, hchildren, List.getElem?_set_self hi, Option.bind_some]
  have hold (q : Path) : n.subtree? (i :: q) = c.subtree? q := by
    rw [subtree?_cons, hc, Option.bind_some]
  refine ⟨(hsubtree p).trans h.put, fun q hp hq => ?_, fun q hq hne => ?_⟩
  · cases q with
    | nil => exact absurd List.nil_prefix hq
    | cons j q =>
      by_cases hj : i = j
      · subst hj
        rw [hsubtree, hold]
        rw [List.cons_prefix_cons] at hp hq
        exact h.beside q (fun hpq => hp ⟨rfl, hpq⟩) fun hqp => hq ⟨rfl, hqp⟩
      · rw [subtree?_cons, subtree?_cons, hchildren, List.getElem?_set_ne hj]
  · cases q with
    | nil =>
      refine ⟨n, m, rfl, rfl, kind_eq_of_form_eq hform, hspan, hform, ?_⟩
      rw [hchildren, List.length_set]
    | cons j q =>
      obtain ⟨rfl, hqp⟩ := List.cons_prefix_cons.1 hq
      rw [hsubtree, hold]
      exact h.above q hqp fun he => hne (congrArg _ he)

theorem replacedAt_of_replace? (h : n.replace? p new = some result) :
    ReplacedAt n p new result := by
  induction p generalizing n result with
  | nil =>
    cases h
    refine ⟨rfl, fun q hp _ => absurd List.nil_prefix hp, fun q hq hne => ?_⟩
    exact absurd (List.prefix_nil.1 hq) hne
  | cons i p ih =>
    rw [replace?_cons, Option.bind_eq_some_iff] at h
    obtain ⟨c, hc, h⟩ := h
    obtain ⟨d, hd, hresult⟩ := Option.bind_eq_some_iff.1 h
    exact (ih hd).child hc hresult

/-- Where the target occurs, a node of its category takes its first place. -/
theorem Contained.exists_substitute (h : root.Contained) (ht : target ∈ root.preorder)
    (hcategory : target.category = new.category) :
    ∃ result p, root.substitute target new = .ok result ∧
      root.places.find? (fun q => root.subtree? q == some target) = some p ∧
      ReplacedAt root p new result := by
  obtain ⟨p, hp⟩ := h.exists_pathTo? ht
  have hresult := replace?_eq_replacing (subtree?_of_pathTo? hp) new
  refine ⟨_, p, substitute_of_pathTo? hcategory hp hresult, ?_, replacedAt_of_replace? hresult⟩
  rw [← h.pathTo?_eq, hp]

theorem mem_preorder_of_substitute (h : root.substitute target new = .ok result) :
    target ∈ root.preorder := by
  obtain ⟨p, hp, -⟩ := substitute_eq_ok h
  exact mem_preorder_of_subtree? hp

/-- A substitution refuses a node of another category, and a target that does not occur. Else it
replaces the first occurrence of the target and nothing else. -/
theorem substitute_first_occurrence (h : root.Contained) (target new : Node) :
    (target.category ≠ new.category → root.substitute target new =
      .error (.malformedReplacement target.category new.category)) ∧
    (target.category = new.category →
      ((∃ result, root.substitute target new = .ok result) ↔ target ∈ root.preorder) ∧
      (target ∉ root.preorder →
        root.substitute target new = .error (.notFound target.kind target.span)) ∧
      ∀ result, root.substitute target new = .ok result →
        ∃ p, root.places.find? (fun q => root.subtree? q == some target) = some p ∧
          ReplacedAt root p new result) := by
  refine ⟨fun hcategory => ?_, fun hcategory => ⟨⟨?_, fun ht => ?_⟩, fun ht => ?_, ?_⟩⟩
  · rw [substitute, if_pos hcategory]
  · rintro ⟨result, hresult⟩
    exact mem_preorder_of_substitute hresult
  · obtain ⟨result, -, hresult, -⟩ := h.exists_substitute ht hcategory
    exact ⟨result, hresult⟩
  · rw [substitute, if_neg (not_not.2 hcategory), pathTo?_eq_none ht]
    rfl
  · intro result hresult
    obtain ⟨result', p, hresult', hp⟩ :=
      h.exists_substitute (mem_preorder_of_substitute hresult) hcategory
    rw [hresult] at hresult'
    cases hresult'
    exact ⟨p, hp⟩

/-- The comparison `a == a`, both of whose operands are read at one place. -/
def comparedWithItself : Node :=
  ⟨⟨0, 1⟩, .binary .equals ⟨⟨0, 1⟩, .identifier "a"⟩ ⟨⟨0, 1⟩, .identifier "a"⟩⟩

theorem substitute_first_occurrence_comparedWithItself :
    let a : Node := ⟨⟨0, 1⟩, .identifier "a"⟩
    let b : Node := ⟨⟨0, 1⟩, .identifier "b"⟩
    comparedWithItself.Contained ∧ comparedWithItself.subtree? [1] = some a ∧
      ReplacedAt comparedWithItself [0] b ⟨⟨0, 1⟩, .binary .equals b a⟩ := by
  intro a b
  have h : comparedWithItself.Contained := by decide +kernel
  have hresult : comparedWithItself.substitute a b = .ok ⟨⟨0, 1⟩, .binary .equals b a⟩ := by
    decide +kernel
  obtain ⟨p, hp, hreplaced⟩ := ((substitute_first_occurrence h a b).2 rfl).2.2 _ hresult
  have hfirst : comparedWithItself.places.find?
      (fun q => comparedWithItself.subtree? q == some a) = some [0] := by decide +kernel
  obtain rfl : p = [0] := Option.some.inj (hp.symm.trans hfirst)
  exact ⟨h, by decide +kernel, hreplaced⟩

end Node

end TreeLint
