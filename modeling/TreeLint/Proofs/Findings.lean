import TreeLint.Proofs.KeptBelow
import TreeLint.Proofs.Simultaneous

namespace TreeLint

namespace Node

variable {α : Type} {own : Node → Option α}

theorem filterMap_preorder (own : Node → Option α) (n : Node) : n.preorder.filterMap own =
    (own n).toList ++ n.children.flatMap fun c => c.preorder.filterMap own := by
  rw [preorder_eq, List.filterMap_cons, List.filterMap_flatMap]
  cases own n with
  | none => rfl
  | some a => rfl

theorem readsThrough_filterMap (hown : ∀ m : Node, ¬ m.isSite → own m = none) {g : Node → Node}
    (hg : IsPass g) : ReadsThrough fun n => (g n).preorder.filterMap own := by
  intro n hn
  have hsite : ¬ (n.mapChildren g).isSite := by
    rwa [isSite_congr (kind_mapChildren g n)]
  dsimp only
  rw [hg.inner n hn, filterMap_preorder, hown _ hsite, Option.toList_none, List.nil_append,
    children_mapChildren, List.flatMap_map]

/-- What fixing does to each comparison and method, it does to all that is read off the tree. -/
theorem filterMap_preorder_fixing {n : Node} {fs : List Finding} {change : α → Option α}
    (hn : n.StrictlyNested) (hown : ∀ m : Node, ¬ m.isSite → own m = none)
    (hchange : ∀ m ∈ n.preorder, own (m.fixing fs) = (own m).bind change) :
    (n.fixing fs).preorder.filterMap own = (n.preorder.filterMap own).filterMap change := by
  induction n using induction_children with
  | h n ih =>
    have hbelow : (n.children.flatMap fun c => (c.fixing fs).preorder.filterMap own) =
        (n.children.flatMap fun c => c.preorder.filterMap own).filterMap change := by
      rw [List.filterMap_flatMap]
      exact List.flatMap_congr fun c hc =>
        ih c hc (hn.child hc) fun m hm => hchange m (mem_preorder_of_child hc hm)
    have hself : (own (n.fixing fs)).toList = (own n).toList.filterMap change := by
      rw [hchange n n.self_mem_preorder]
      cases own n with
      | none => rfl
      | some a => cases hc : change a <;> simp [hc]
    -- A fix moves and wraps the children, but all that is read off them stays, in its order.
    have hchildren : ((n.fixing fs).children.flatMap fun c => c.preorder.filterMap own) =
        n.children.flatMap fun c => (c.fixing fs).preorder.filterMap own := by
      have hreads := readsThrough_filterMap hown (isPass_fixing fs)
      by_cases hc : n.Chosen fs
      · cases hm : n.fixed? with
        | none =>
          rw [fixing_of_fixed?_eq_none hn hm, children_mapChildren, List.flatMap_map]
        | some m =>
          rw [fixing_of_fixed? hn hc hm, children_mapChildren, List.flatMap_map]
          exact reads_children_of_fixed? hreads hn hm
      · rw [fixing_of_not_chosen hc, children_mapChildren, List.flatMap_map]
    rw [filterMap_preorder, filterMap_preorder own n, List.filterMap_append, hself, hchildren,
      hbelow]

variable {n x y : Node} {f : Finding} {fs : List Finding}

theorem two_le_length_children (h : n.isSite) : 2 ≤ n.children.length := by
  obtain ⟨span, shape⟩ := n
  cases shape with
  | binary => exact Nat.le_refl 2
  | methodDecl => simp [children, Shape.children]
  | _ => cases h

theorem span_eq_of_finding? (h : n.finding? = some f) : f.span = n.span := by
  obtain ⟨r, -, -, rfl⟩ := finding?_eq_some.1 h
  rfl

theorem isSite_of_finding? (h : n.finding? = some f) : n.isSite := by
  by_contra hn
  rw [finding?_eq_none hn] at h
  cases h

theorem StrictlyNested.nodup_filterMap {own : Node → Option Finding} (hn : n.StrictlyNested)
    (hown : ∀ m f, own m = some f → m.finding? = some f) : (n.preorder.filterMap own).Nodup := by
  induction n using induction_children with
  | h n ih =>
    have hmem (c : Node) (f : Finding) (hf : f ∈ c.preorder.filterMap own) :
        ∃ m ∈ c.preorder, f.span = m.span := by
      obtain ⟨m, hm, hf⟩ := List.mem_filterMap.1 hf
      exact ⟨m, hm, span_eq_of_finding? (hown m f hf)⟩
    rw [filterMap_preorder, List.nodup_append]
    refine ⟨?_, ?_, ?_⟩
    · cases own n with
      | none => exact .nil
      | some f => exact List.nodup_singleton f
    · refine List.nodup_flatMap.2 ⟨fun c hc => ih c hc (hn.child hc), ?_⟩
      refine List.Pairwise.imp_of_mem ?_ hn.self.apart
      intro a b ha hb hab f hfa hfb
      obtain ⟨x, hx, hxf⟩ := hmem a f hfa
      obtain ⟨y, hy, hyf⟩ := hmem b f hfb
      exact StrictlyNested.span_ne_of_siblings (hn.child ha) (hn.child hb) hab hx hy
        (hxf.symm.trans hyf)
    · -- Two different nodes of one finding would have one span, and a comparison or a method has
      -- two children apart, so no node below it covers it.
      rintro f hf g hg rfl
      have hfinding := hown n f (Option.mem_toList.1 hf)
      obtain ⟨c, hc, hf⟩ := List.mem_flatMap.1 hg
      obtain ⟨x, hx, hxf⟩ := hmem c f hf
      exact hn.span_ne_of_child (two_le_length_children (isSite_of_finding? hfinding)) hc hx
        (hxf.symm.trans (span_eq_of_finding? hfinding))

/-- The nodes of a tree that stand for a finding. -/
def nodesFor (f : Finding) (n : Node) : List Node :=
  n.preorder.filterMap (Option.guard fun m => m.finding? == some f)

theorem mem_nodesFor : x ∈ n.nodesFor f ↔ x ∈ n.preorder ∧ x.finding? = some f := by
  rw [nodesFor, List.filterMap_eq_filter, List.mem_filter, beq_iff_eq]

/-- In a strictly nested tree, a finding stands for one node. -/
theorem StrictlyNested.nodesFor_eq (hn : n.StrictlyNested) (hx : x ∈ n.preorder)
    (hf : x.finding? = some f) : n.nodesFor f = [x] := by
  have hcount : (n.nodesFor f).length ≤ 1 := by
    have hnodup := List.nodup_iff_count_le_one.1 (hn.nodup_filterMap fun _ _ h => h) f
    rw [List.count_filterMap, List.countP_eq_length_filter] at hnodup
    rwa [nodesFor, List.filterMap_eq_filter]
  have hmem : x ∈ n.nodesFor f := mem_nodesFor.2 ⟨hx, hf⟩
  match hs : n.nodesFor f with
  | [] => simp [hs] at hmem
  | [y] =>
    rw [hs, List.mem_singleton] at hmem
    rw [hmem]
  | _ :: _ :: _ => simp [hs] at hcount

/-- The nodes of a finding that is not fixed are left, changed only inside. -/
theorem nodesFor_fixing (hn : n.StrictlyNested) (hf : f ∉ fs) :
    (n.fixing fs).nodesFor f = (n.nodesFor f).map (mapChildren (fixing fs)) := by
  rw [nodesFor, nodesFor, ← List.filterMap_eq_map]
  refine filterMap_preorder_fixing hn (fun m hm => ?_) fun m _ => ?_
  · simp [Option.guard_eq_none_iff, finding?_eq_none hm]
  · by_cases hm : m.finding? = some f
    · have hchosen : ¬ m.Chosen fs := by
        rwa [chosen_iff hm]
      have hleft : (m.mapChildren (fixing fs)).finding? = some f := by
        rwa [finding?_congr (kind_mapChildren _ m) (span_mapChildren _ m)]
      rw [fixing_of_not_chosen hchosen]
      simp [Option.guard, hm, hleft]
    · have hleft : (m.fixing fs).finding? ≠ some f := by
        intro h
        rw [finding?_fixing (isSite_of_finding? h)] at h
        exact hm h
      simp [Option.guard, hm, hleft]

end Node

end TreeLint
