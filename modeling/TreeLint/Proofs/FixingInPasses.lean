import Mathlib.Data.List.Permutation
import TreeLint.Proofs.BatchFixes

namespace TreeLint

namespace Registry

variable {registry : Registry} {types : TypeTable} {start tree : Node} {applied fs gs : List Finding}
  {failed : List (Finding × RuleError)}

/-- How far fixing the findings of a tree has come: the applied ones are fixed in it, the failed
ones have no fix, and all of them are different findings of its report. -/
structure Progress (registry : Registry) (types : TypeTable) (start tree : Node)
    (applied : List Finding) (failed : List (Finding × RuleError)) : Prop where
  tree_eq : tree = start.fixing applied
  fixable : start.Fixable applied
  unfixable : start.Unfixable (failed.map Prod.fst)
  nodup : (applied ++ failed.map Prod.fst).Nodup
  reported : applied ++ failed.map Prod.fst ⊆ registry.report types.oracle start

namespace Progress

theorem initial (registry : Registry) (types : TypeTable) (start : Node) :
    registry.Progress types start start [] [] := by
  exact ⟨(Node.fixing_eq_self fun _ _ => Node.not_chosen_nil).symm, Node.fixable_nil,
    Node.unfixable_nil, .nil, List.nil_subset _⟩

theorem pending_eq (h : registry.Progress types start tree applied failed)
    (hregistry : registry.IsBuiltin) (hstart : start.StrictlyNested) :
    registry.pending types.oracle tree failed = (registry.report types.oracle start).filter
      fun f => decide (f ∉ applied ++ failed.map Prod.fst) := by
  rw [pending_eq_filter, h.tree_eq, hregistry.report_fixing hstart h.fixable, List.filter_filter]
  apply List.filter_congr
  intro f _
  rw [Bool.eq_iff_iff]
  simp only [Bool.and_eq_true, decide_eq_true_eq, List.mem_append, not_or]
  exact and_comm

theorem mem_pending (h : registry.Progress types start tree applied failed)
    (hregistry : registry.IsBuiltin) (hstart : start.StrictlyNested) {f : Finding} :
    f ∈ registry.pending types.oracle tree failed ↔
      f ∈ registry.report types.oracle start ∧ f ∉ applied ++ failed.map Prod.fst := by
  rw [h.pending_eq hregistry hstart, List.mem_filter, decide_eq_true_eq]

theorem nodup_pending (h : registry.Progress types start tree applied failed)
    (hregistry : registry.IsBuiltin) (hstart : start.StrictlyNested) :
    (registry.pending types.oracle tree failed).Nodup := by
  rw [h.pending_eq hregistry hstart]
  exact (hregistry.nodup_report hstart).filter _

/-- Nothing is lost and nothing is invented: together with the pending findings, the applied and the
failed ones are those of the first report. -/
theorem perm (h : registry.Progress types start tree applied failed)
    (hregistry : registry.IsBuiltin) (hstart : start.StrictlyNested) :
    (applied ++ failed.map Prod.fst ++ registry.pending types.oracle tree failed).Perm
      (registry.report types.oracle start) := by
  have hmem {f : Finding} := h.mem_pending (f := f) hregistry hstart
  refine (List.perm_ext_iff_of_nodup ?_ (hregistry.nodup_report hstart)).2 fun f => ?_
  · refine List.nodup_append'.2 ⟨h.nodup, h.nodup_pending hregistry hstart, ?_⟩
    intro f hf hpending
    exact (hmem.1 hpending).2 hf
  · rw [List.mem_append, hmem]
    constructor
    · intro hf
      rcases hf with hf | hf
      · exact h.reported hf
      · exact hf.1
    · intro hf
      by_cases hdone : f ∈ applied ++ failed.map Prod.fst
      · exact .inl hdone
      · exact .inr ⟨hf, hdone⟩

theorem step (h : registry.Progress types start tree applied failed)
    (hregistry : registry.IsBuiltin) (hstart : start.StrictlyNested) :
    ∃ outcome,
      registry.applyAll tree (registry.pending types.oracle tree failed) = .ok outcome ∧
      registry.Progress types start outcome.tree (applied ++ outcome.applied)
        (failed ++ outcome.failed) := by
  have hmem {f : Finding} := h.mem_pending (f := f) hregistry hstart
  have hstands (f : Finding) (hf : f ∈ registry.pending types.oracle tree failed) :
      f ∉ applied ∧ ∃ r x, registry.StandsFor start f r x := by
    obtain ⟨hreported, hfresh⟩ := hmem.1 hf
    exact ⟨fun ha => hfresh (List.mem_append_left _ ha), hregistry.exists_standsFor hreported⟩
  obtain ⟨outcome, happly, hsettles⟩ := exists_applyAll_fixing hstart hstands
  rw [← h.tree_eq] at happly
  have hsub (f : Finding) (hf : f ∈ outcome.applied ++ outcome.failed.map Prod.fst) :
      f ∈ registry.pending types.oracle tree failed :=
    hsettles.perm.mem_iff.1 (List.mem_append_left _ hf)
  have hnodup : (outcome.applied ++ outcome.failed.map Prod.fst).Nodup := by
    have hall := hsettles.perm.nodup_iff.2 (h.nodup_pending hregistry hstart)
    exact (List.nodup_append'.1 hall).1
  -- The findings of this pass come behind those of the earlier ones, up to their order.
  have hperm : (applied ++ outcome.applied ++ (failed ++ outcome.failed).map Prod.fst).Perm
      (applied ++ failed.map Prod.fst ++ (outcome.applied ++ outcome.failed.map Prod.fst)) := by
    rw [List.map_append, List.append_assoc, List.append_assoc]
    apply List.Perm.append_left
    rw [← List.append_assoc, ← List.append_assoc]
    exact List.perm_append_comm.append_right _
  refine ⟨outcome, happly, hsettles.tree_eq, h.fixable.append hsettles.fixable, ?_, ?_, ?_⟩
  · rw [List.map_append]
    exact h.unfixable.append hsettles.unfixable
  · apply hperm.nodup_iff.2
    apply List.nodup_append'.2
    refine ⟨h.nodup, hnodup, ?_⟩
    intro f hdone hf
    exact (hmem.1 (hsub f hf)).2 hdone
  · intro f hf
    rcases List.mem_append.1 (hperm.mem_iff.1 hf) with hf | hf
    · exact h.reported hf
    · exact (hmem.1 (hsub f hf)).1

theorem exists_fixPasses (h : registry.Progress types start tree applied failed)
    (hregistry : registry.IsBuiltin) (hstart : start.StrictlyNested) (passes : Nat) :
    ∃ outcome, registry.fixPasses types.oracle passes tree applied failed = .ok outcome ∧
      registry.Progress types start outcome.tree outcome.applied outcome.failed ∧
      outcome.deferred = registry.pending types.oracle outcome.tree outcome.failed := by
  obtain ⟨outcome, -, hfix, hprogress, hdeferred, -⟩ :=
    Registry.exists_fixPasses (fun _ => registry.Progress types start)
      (fun _ _ _ _ h => h.step hregistry hstart) h
  exact ⟨outcome, hfix, hprogress, hdeferred⟩

end Progress

/-- Fixing a strictly nested tree succeeds, and each finding of its report is applied, failed or
deferred, once. -/
theorem exists_fixAll_perm (h : registry.IsBuiltin) (htree : tree.StrictlyNested)
    (types : TypeTable) :
    ∃ outcome, registry.fixAll types.oracle tree = .ok outcome ∧
      (outcome.applied ++ outcome.failed.map Prod.fst ++ outcome.deferred).Perm
        (registry.report types.oracle tree) := by
  obtain ⟨outcome, hfix, hprogress, hdeferred⟩ :=
    (Progress.initial registry types tree).exists_fixPasses h htree maxPasses
  refine ⟨outcome, hfix, ?_⟩
  rw [hdeferred]
  exact hprogress.perm h htree

theorem exists_fixAll_perm_tryGet :
    ∃ outcome, builtin.fixAll TypeTable.tryGet.oracle Node.tryGet = .ok outcome ∧
      (outcome.applied ++ outcome.failed.map Prod.fst ++ outcome.deferred).Perm
        (builtin.report TypeTable.tryGet.oracle Node.tryGet) :=
  exists_fixAll_perm isBuiltin_builtin (by decide +kernel) TypeTable.tryGet

/-- The tree with a finding fixed, or the tree as it is when the finding's rule has no fix for it.
-/
def fixOrSkip (registry : Registry) (tree : Node) (f : Finding) : Except FixError Node :=
  match registry.applyFix tree f with
  | .error (.rule _) => .ok tree
  | result => result

theorem StandsFor.fixOrSkip_fixing {f : Finding} {r : Rule} {x : Node}
    (h : registry.StandsFor start f r x) (hstart : start.StrictlyNested) (hgs : f ∉ gs) :
    registry.fixOrSkip (start.fixing gs) f = .ok (start.fixing (f :: gs)) := by
  cases hx : x.fixed? with
  | some m => rw [fixOrSkip, h.applyFix_of_fixed? hstart hgs (by simp [hx])]
  | none =>
    obtain ⟨e, he⟩ := h.applyFix_of_fixed?_eq_none hstart hgs hx
    have hnone : start.Unfixable [f] := by
      intro m hm hc
      rwa [h.eq_of_finding? hstart hm (Node.chosen_singleton.1 hc)]
    have happend : start.fixing (gs ++ [f]) = start.fixing gs :=
      Node.fixing_append_of_unfixable hstart hnone
    have hsame : start.fixing (f :: gs) = start.fixing (gs ++ [f]) := by
      apply Node.fixing_eq_of_mem_iff hstart
      simp [or_comm]
    rw [fixOrSkip, he, hsame, happend]

/-- Fixing or skipping different findings one after another fixes them all at once. -/
theorem foldlM_fixOrSkip (hstart : start.StrictlyNested)
    (hfs : ∀ f ∈ fs, ∃ r x, registry.StandsFor start f r x) (hnodup : fs.Nodup)
    (hgs : fs.Disjoint gs) :
    fs.foldlM registry.fixOrSkip (start.fixing gs) = .ok (start.fixing (fs.reverse ++ gs)) := by
  induction fs generalizing gs with
  | nil => rfl
  | cons f fs ih =>
    obtain ⟨r, x, hx⟩ := hfs f List.mem_cons_self
    obtain ⟨hf, hnodup⟩ := List.nodup_cons.1 hnodup
    obtain ⟨hfgs, hgs⟩ := List.disjoint_cons_left.1 hgs
    have hall := ih (fun g hg => hfs g (List.mem_cons_of_mem f hg)) hnodup
      (List.disjoint_cons_right.2 ⟨hf, hgs⟩)
    rw [List.foldlM_cons, hx.fixOrSkip_fixing hstart hfgs]
    change List.foldlM _ (start.fixing (f :: gs)) _ = _
    rw [hall]
    simp

/-- When fixing in passes leaves nothing, it leaves the tree that single fixes make of it, in
whichever order they are done. -/
theorem foldlM_fixOrSkip_eq_fixAll {outcome : Outcome} (h : registry.IsBuiltin)
    (htree : tree.StrictlyNested) (hfix : registry.fixAll types.oracle tree = .ok outcome)
    (hdeferred : outcome.deferred = []) (hfs : fs.Perm (registry.report types.oracle tree)) :
    fs.foldlM registry.fixOrSkip tree = .ok outcome.tree := by
  obtain ⟨outcome', hfix', hprogress, hdeferred'⟩ :=
    (Progress.initial registry types tree).exists_fixPasses h htree maxPasses
  rw [← fixAll, hfix] at hfix'
  cases hfix'
  have hperm := hprogress.perm h htree
  rw [← hdeferred', hdeferred, List.append_nil] at hperm
  have hself := (Progress.initial registry types tree).tree_eq
  have hall : fs.foldlM registry.fixOrSkip (tree.fixing []) =
      .ok (tree.fixing (fs.reverse ++ [])) :=
    foldlM_fixOrSkip htree (fun f hf => h.exists_standsFor (hfs.mem_iff.1 hf))
      (hfs.nodup_iff.2 (h.nodup_report htree)) (List.disjoint_nil_right fs)
  rw [← hself] at hall
  -- The findings that have failed are chosen as well in the single fixes, but have no fix.
  have happend : tree.fixing (outcome.applied ++ outcome.failed.map Prod.fst) =
      tree.fixing outcome.applied :=
    Node.fixing_append_of_unfixable htree hprogress.unfixable
  have hsame : tree.fixing (fs.reverse ++ []) =
      tree.fixing (outcome.applied ++ outcome.failed.map Prod.fst) := by
    apply Node.fixing_eq_of_mem_iff htree
    intro f
    rw [List.append_nil, List.mem_reverse, hfs.mem_iff, hperm.mem_iff]
  rw [hall, hsame, happend, ← hprogress.tree_eq]

theorem foldlM_fixOrSkip_eq_fixAll_tryGet :
    let comparison := ValueEquality.rule.findingAt ⟨22, 28⟩
    let method := TryMethod.rule.findingAt ⟨0, 30⟩
    let fixed := Node.tryGet.fixing [method, comparison]
    builtin.fixAll TypeTable.tryGet.oracle Node.tryGet =
        .ok ⟨fixed, [method, comparison], [], []⟩ ∧
      [comparison, method].foldlM builtin.fixOrSkip Node.tryGet = .ok fixed := by
  intro comparison method fixed
  have hfix : builtin.fixAll TypeTable.tryGet.oracle Node.tryGet =
      .ok ⟨fixed, [method, comparison], [], []⟩ := by
    cbv
  exact ⟨hfix, foldlM_fixOrSkip_eq_fixAll isBuiltin_builtin (by decide +kernel) hfix rfl
    (by decide +kernel)⟩

end Registry

end TreeLint
