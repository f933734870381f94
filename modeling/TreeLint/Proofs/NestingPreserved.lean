import TreeLint.Proofs.NestedReplacement

namespace TreeLint

/-- A replacement that a batch may apply to a nested tree: it has the span that it is meant for. -/
structure Replacement.Fits (r : Replacement) : Prop where
  nests : r.node.SpansNest
  span_eq : r.node.span = r.span

namespace Node

variable {root t : Node} {rs : List Replacement}

theorem SpansNest.applyReplacement {r : Replacement} (h : root.SpansNest) (hr : r.Fits)
    (ht : root.applyReplacement r = .ok t) : t.SpansNest := by
  rw [Node.applyReplacement, bind_eq_ok] at ht
  obtain ⟨target, htarget, ht⟩ := ht
  obtain ⟨-, hspan, -⟩ := of_findSpan?_eq_some (locate_eq_ok.1 htarget)
  exact (h.substitute (hr.span_eq.trans hspan.symm) hr.nests ht).1

theorem SpansNest.foldlM_applyReplacement (h : root.SpansNest) (hrs : ∀ r ∈ rs, r.Fits)
    (ht : rs.foldlM Node.applyReplacement root = .ok t) : t.SpansNest := by
  induction rs generalizing root with
  | nil =>
    cases ht
    exact h
  | cons r rs ih =>
    rw [List.foldlM_cons, bind_eq_ok] at ht
    obtain ⟨u, hu, ht⟩ := ht
    exact ih (h.applyReplacement (hrs r List.mem_cons_self) hu)
      (fun s hs => hrs s (List.mem_cons_of_mem r hs)) ht

theorem SpansNest.applyReplacements (h : root.SpansNest) (hrs : ∀ r ∈ rs, r.Fits)
    (ht : root.applyReplacements rs = .ok t) : t.SpansNest := by
  rw [Node.applyReplacements] at ht
  split at ht
  · cases ht
  · exact h.foldlM_applyReplacement (fun r hr => hrs r (List.mem_mergeSort.1 hr)) ht

end Node

/-- A call that fixes findings of a tree. The findings may be reported ones, but also stale ones or
ones that no rule has ever reported. -/
inductive FixCall where
  | one (finding : Finding)
  | batch (findings : List Finding)
  | all (oracle : TypeOracle)

namespace Registry

variable {registry : Registry} {tree t : Node} {f : Finding} {fs : List Finding} {r : Rule}

/-- A fix nests and has its finding's span, also when the finding resolves to a node other than the
one that it was reported for. -/
theorem Resolves.spansNest {target new : Node} (h : registry.Resolves tree f r target)
    (hregistry : registry.IsBuiltin) (htree : tree.SpansNest)
    (hnew : r.synthesize target = .ok new) : new.SpansNest ∧ new.span = f.span := by
  obtain ⟨hmem, hspan, -⟩ := Node.of_findSpan?_eq_some h.node
  have hr := hregistry.subset r (find?_eq_some h.rule).1
  obtain ⟨hnest, hnewSpan⟩ := keepsNesting_of_mem_builtin hr (htree.below hmem) hnew
  exact ⟨hnest, hnewSpan.trans hspan⟩

theorem IsBuiltin.spansNest_applyFix (h : registry.IsBuiltin) (htree : tree.SpansNest)
    (ht : registry.applyFix tree f = .ok t) : t.SpansNest := by
  obtain ⟨r, target, new, hr, hnew, ht⟩ := applyFix_eq_ok.1 ht
  obtain ⟨hnest, hspan⟩ := hr.spansNest h htree hnew
  obtain ⟨-, htarget, -⟩ := Node.of_findSpan?_eq_some hr.node
  exact (htree.substitute (hspan.trans htarget.symm) hnest ht).1

theorem IsBuiltin.spansNest_applyAll {outcome : Outcome} (h : registry.IsBuiltin)
    (htree : tree.SpansNest) (hfix : registry.applyAll tree fs = .ok outcome) :
    outcome.tree.SpansNest := by
  obtain ⟨batch, hbatch, hfixed, -⟩ := applyAll_eq_ok.1 hfix
  refine htree.applyReplacements (fun new hnew => ?_) hfixed
  obtain ⟨⟨f, new⟩, hf, rfl⟩ := List.mem_map.1 hnew
  obtain ⟨r, target, hr, hnode, hspan, -⟩ := (decides_of_decideAll hbatch).of_mem_applied hf
  obtain ⟨hnest, hnodeSpan⟩ := hr.spansNest h htree hnode
  exact ⟨hnest, hnodeSpan.trans hspan.symm⟩

/-- What every batch keeps, fixing in passes keeps. -/
theorem fixPasses_keeps {P : Node → Prop} {oracle : TypeOracle}
    (hstep : ∀ tree fs outcome, P tree → registry.applyAll tree fs = .ok outcome → P outcome.tree)
    {passes : Nat} {applied : List Finding} {failed : List (Finding × RuleError)}
    {outcome : Outcome} (htree : P tree)
    (hfix : registry.fixPasses oracle passes tree applied failed = .ok outcome) :
    P outcome.tree := by
  induction passes generalizing tree applied failed with
  | zero =>
    cases hfix
    exact htree
  | succ passes ih =>
    rw [fixPasses.eq_def] at hfix
    dsimp only at hfix
    split at hfix
    · cases hfix
      exact htree
    · obtain ⟨pass, hpass, hfix⟩ := bind_eq_ok.1 hfix
      exact ih (hstep _ _ _ htree hpass) hfix

theorem IsBuiltin.spansNest_fixAll {outcome : Outcome} {oracle : TypeOracle}
    (h : registry.IsBuiltin) (htree : tree.SpansNest)
    (hfix : registry.fixAll oracle tree = .ok outcome) : outcome.tree.SpansNest :=
  fixPasses_keeps (fun _ _ _ => h.spansNest_applyAll) htree hfix

/-- The tree after a call. A call that fails leaves the tree as it was. -/
def after (registry : Registry) (tree : Node) : FixCall → Node
  | .one f => (registry.applyFix tree f).toOption.getD tree
  | .batch fs => ((registry.applyAll tree fs).map Outcome.tree).toOption.getD tree
  | .all oracle => ((registry.fixAll oracle tree).map Outcome.tree).toOption.getD tree

theorem IsBuiltin.spansNest_after (h : registry.IsBuiltin) (htree : tree.SpansNest)
    (call : FixCall) : (registry.after tree call).SpansNest := by
  cases call with
  | one f =>
    rw [after]
    cases hfix : registry.applyFix tree f with
    | error e => exact htree
    | ok t => exact h.spansNest_applyFix htree hfix
  | batch fs =>
    rw [after]
    cases hfix : registry.applyAll tree fs with
    | error e => exact htree
    | ok outcome => exact h.spansNest_applyAll htree hfix
  | all oracle =>
    rw [after]
    cases hfix : registry.fixAll oracle tree with
    | error e => exact htree
    | ok outcome => exact h.spansNest_fixAll htree hfix

/-- However a tree without span violation is fixed, no call ever leaves one with a violation. -/
theorem no_violation_after_calls (h : registry.IsBuiltin) (htree : tree.spanViolation? = none)
    (calls : List FixCall) : (calls.foldl registry.after tree).spanViolation? = none := by
  rw [Node.spanViolation?_eq_none_iff_spansNest] at *
  induction calls generalizing tree with
  | nil => exact htree
  | cons call calls ih =>
    rw [List.foldl_cons]
    exact ih (h.spansNest_after htree call)

/-- A fabricated finding turns `TryGet` into an `out` method, a stale one is refused, and a batch
goes on to the comparison that now lies inside a `try`. -/
theorem no_violation_after_calls_tryGet :
    Node.tryGet.spanViolation? = none ∧
      ([.one ⟨TryMethod.ruleId, ⟨0, 30⟩, "", .info⟩, .one ⟨TryMethod.ruleId, ⟨5, 9⟩, "", .info⟩,
        .batch [ValueEquality.rule.findingAt ⟨22, 28⟩], .all TypeTable.empty.oracle].foldl
          builtin.after Node.tryGet).spanViolation? = none :=
  ⟨by decide +kernel, no_violation_after_calls isBuiltin_builtin (by decide +kernel) _⟩

end Registry

end TreeLint
