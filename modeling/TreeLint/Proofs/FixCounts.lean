import TreeLint.Proofs.Convergence
import TreeLint.Proofs.FixingRuns
import TreeLint.Report.Text

namespace TreeLint

namespace Review

/-- The findings that are shown as fixed: no reason is given why they were not. -/
def shownFixed (review : Review) : List Finding :=
  (review.findings.filter fun r => r.unfixable.isNone).map ReviewedFinding.finding

/-- The tree of the fixed document, or that of the reviewed one when nothing was fixed. -/
def finalTree (review : Review) (d : Document) : Node :=
  (review.fixed.map Document.tree).getD d.tree

end Review

theorem Finding.isNone_unfixable_reviewed (f : Finding) (failed : List (Finding × RuleError)) :
    (f.reviewed failed).unfixable.isNone = decide (f ∉ failed.map Prod.fst) := by
  rw [Bool.eq_iff_iff, Option.isNone_iff_eq_none, decide_eq_true_eq, reviewed,
    Option.map_eq_none_iff, List.lookup_eq_none_iff, List.mem_map]
  constructor
  · rintro h ⟨g, hg, rfl⟩
    simpa using h g hg
  · intro h g hg
    apply bne_iff_ne.2
    rintro rfl
    exact h ⟨g, hg, rfl⟩

theorem Report.appliedLine (t : Terminal) (cause : DocumentError → String) (verbose : Bool)
    (path written : FilePath) (review : Review) :
    (Report.documentText t cause verbose ⟨path, .fixed review.findings written⟩).out[1]? =
      some ("  " ++ t.paint .green "OK" ++ " Applied " ++ toString review.shownFixed.length ++
        " fix(es), wrote " ++ written.display) := by
  have hshown : (review.findings.filter fun r => !r.unfixable.isSome).length =
      review.shownFixed.length := by
    rw [Review.shownFixed, List.length_map]
    apply congrArg List.length
    apply List.filter_congr
    intro r _
    exact Option.not_isSome r.unfixable
  rw [← hshown, documentText]
  dsimp only
  rw [List.partition_eq_filter_filter]
  rfl

namespace Registry

variable {registry : Registry} {oracle : TypeOracle} {types : TypeTable} {start tree : Node}
  {applied : List Finding} {failed : List (Finding × RuleError)} {outcome : Outcome}

theorem fixAll_of_report_eq_nil (h : registry.report oracle tree = []) :
    registry.fixAll oracle tree = .ok ⟨tree, [], [], []⟩ := by
  have hpending : registry.pending oracle tree [] = [] := by
    rw [pending, h]
    rfl
  rw [fixAll, maxPasses, fixPasses, hpending]

theorem deferred_eq_pending (h : registry.fixAll oracle tree = .ok outcome) :
    outcome.deferred = registry.pending oracle outcome.tree outcome.failed := by
  obtain ⟨-, -, -, hdeferred⟩ := Scans.first.fixPasses h
  exact hdeferred

theorem IsBuiltin.progress_of_fixAll (h : registry.IsBuiltin) (htree : tree.StrictlyNested)
    (hfix : registry.fixAll types.oracle tree = .ok outcome) :
    registry.Progress types tree outcome.tree outcome.applied outcome.failed := by
  obtain ⟨outcome', hfix', hprogress, -⟩ :=
    (Progress.initial registry types tree).exists_fixPasses h htree maxPasses
  rw [← fixAll, hfix] at hfix'
  cases hfix'
  exact hprogress

theorem IsBuiltin.deferred_eq_nil (h : registry.IsBuiltin) (htree : tree.StrictlyNested)
    (hfix : registry.fixAll types.oracle tree = .ok outcome)
    (hdepth : ∀ offset, depthAt (registry.report types.oracle tree) offset ≤ maxPasses) :
    outcome.deferred = [] := by
  rw [← pending_nil] at hdepth
  obtain ⟨outcome', hfix', -, hnone, -⟩ :=
    (Progress.initial registry types tree).exists_fixPasses_of_depth h htree hdepth
  rw [← fixAll, hfix] at hfix'
  cases hfix'
  exact hnone

theorem fixAll_tryGet :
    let method := TryMethod.rule.findingAt ⟨0, 30⟩
    let comparison := ValueEquality.rule.findingAt ⟨22, 28⟩
    builtin.fixAll TypeTable.tryGet.oracle Node.tryGet =
      .ok ⟨Node.tryGet.fixing [method, comparison], [method, comparison], [], []⟩ := by
  cbv

theorem Progress.filter_report_perm (h : registry.Progress types start tree applied failed)
    (hregistry : registry.IsBuiltin) (hstart : start.StrictlyNested) :
    ((registry.report types.oracle start).filter fun f => decide (f ∉ failed.map Prod.fst)).Perm
      (applied ++ registry.pending types.oracle tree failed) := by
  obtain ⟨-, -, hdisjoint⟩ := List.nodup_append'.1 h.nodup
  have happlied : applied.filter (fun f => decide (f ∉ failed.map Prod.fst)) = applied := by
    rw [List.filter_eq_self]
    intro f hf
    exact decide_eq_true (hdisjoint hf)
  have hfailed : (failed.map Prod.fst).filter (fun f => decide (f ∉ failed.map Prod.fst)) = [] := by
    rw [List.filter_eq_nil_iff]
    intro f hf
    simpa using hf
  have hpending : (registry.pending types.oracle tree failed).filter
      (fun f => decide (f ∉ failed.map Prod.fst)) = registry.pending types.oracle tree failed := by
    rw [pending_eq_filter, List.filter_filter]
    simp only [Bool.and_self]
  have hperm := (h.perm hregistry hstart).symm.filter fun f => decide (f ∉ failed.map Prod.fst)
  rw [List.filter_append, List.filter_append, happlied, hfailed, hpending,
    List.append_nil] at hperm
  exact hperm

end Registry

namespace Document

variable {registry : Registry} {d : Document} {review : Review} {outcome : Outcome}

theorem review_eq_ok : d.review registry = .ok review ↔ d.tree.spanViolation? = none ∧
    ∃ outcome, registry.fixAll d.types.oracle d.tree = .ok outcome ∧ review =
      ⟨(registry.report d.types.oracle d.tree).map (Finding.reviewed outcome.failed),
        d.tree.render, outcome.tree.render,
        if outcome.applied.isEmpty then none else some ⟨outcome.tree, d.types⟩⟩ := by
  constructor
  · intro h
    rw [Document.review] at h
    split at h
    · cases h
    · rename_i hvalid
      dsimp only at h
      split at h
      · rename_i hnone
        cases h
        rw [hnone]
        exact ⟨hvalid, _, Registry.fixAll_of_report_eq_nil hnone, rfl⟩
      · split at h
        · cases h
        · rename_i outcome hfix
          cases h
          exact ⟨hvalid, outcome, hfix, rfl⟩
  · rintro ⟨hvalid, outcome, hfix, rfl⟩
    rw [Document.review, hvalid]
    dsimp only
    split
    · rename_i hnone
      rw [Registry.fixAll_of_report_eq_nil hnone] at hfix
      cases hfix
      rw [hnone]
      rfl
    · rw [hfix]

theorem shownFixed_eq (h : review.findings =
    (registry.report d.types.oracle d.tree).map (Finding.reviewed outcome.failed)) :
    review.shownFixed = (registry.report d.types.oracle d.tree).filter
      fun f => decide (f ∉ outcome.failed.map Prod.fst) := by
  rw [Review.shownFixed, h, List.filter_map, List.map_map]
  have hfinding : ReviewedFinding.finding ∘ Finding.reviewed outcome.failed = id := rfl
  rw [hfinding, List.map_id]
  apply List.filter_congr
  intro f _
  exact f.isNone_unfixable_reviewed outcome.failed

theorem finalTree_eq (hfix : registry.fixAll d.types.oracle d.tree = .ok outcome)
    (h : review.fixed =
      if outcome.applied.isEmpty then none else some ⟨outcome.tree, d.types⟩) :
    review.finalTree d = outcome.tree := by
  rw [Review.finalTree, h]
  split
  · rename_i hnone
    obtain ⟨n, -, hscan, -⟩ := Registry.Scans.first.fixPasses hfix
    exact (hscan.tree_eq_start (List.isEmpty_iff.1 hnone)).symm
  · rfl

theorem exists_outcome (hreview : d.review registry = .ok review) :
    ∃ outcome, registry.fixAll d.types.oracle d.tree = .ok outcome ∧
      review.finalTree d = outcome.tree ∧
      review.shownFixed = (registry.report d.types.oracle d.tree).filter
        fun f => decide (f ∉ outcome.failed.map Prod.fst) := by
  obtain ⟨-, outcome, hfix, hshown⟩ := review_eq_ok.1 hreview
  refine ⟨outcome, hfix, ?_, ?_⟩
  · apply finalTree_eq hfix
    rw [hshown]
  · apply shownFixed_eq
    rw [hshown]

/-- A finding shown as fixed is still reported if it was deferred. -/
theorem mem_report_outcome {f : Finding}
    (hfix : registry.fixAll d.types.oracle d.tree = .ok outcome)
    (hshown : review.shownFixed = (registry.report d.types.oracle d.tree).filter
      fun f => decide (f ∉ outcome.failed.map Prod.fst)) (hf : f ∈ review.shownFixed) :
    f ∈ registry.report d.types.oracle outcome.tree ↔ f ∈ outcome.deferred := by
  rw [hshown, List.mem_filter, decide_eq_true_eq] at hf
  rw [Registry.deferred_eq_pending hfix, Registry.pending_eq_filter, List.mem_filter,
    decide_eq_true_eq]
  exact (and_iff_left hf.2).symm

/-- Of the findings shown as fixed, a scan of the final tree reports those that were deferred. In a
strictly nested tree the printed count is that of the applied and the deferred ones, the applied
ones are fixed in the final tree, and none is deferred unless more than 16 lie around one offset. -/
theorem review_counts (h : registry.IsBuiltin) (hreview : d.review registry = .ok review) :
    ∃ outcome, registry.fixAll d.types.oracle d.tree = .ok outcome ∧
      (∀ f ∈ review.shownFixed, f ∈ registry.report d.types.oracle (review.finalTree d) ↔
        f ∈ outcome.deferred) ∧
      (d.tree.StrictlyNested →
        (∀ (t : Terminal) (cause : DocumentError → String) (verbose : Bool) (path written : FilePath),
          (Report.documentText t cause verbose ⟨path, .fixed review.findings written⟩).out[1]? =
            some ("  " ++ t.paint .green "OK" ++ " Applied " ++
              toString (outcome.applied.length + outcome.deferred.length) ++
              " fix(es), wrote " ++ written.display)) ∧
        review.finalTree d = d.tree.fixing outcome.applied ∧
        d.tree.Fixable outcome.applied ∧ outcome.applied.Nodup ∧
        ((∀ offset, depthAt (registry.report d.types.oracle d.tree) offset ≤ 16) →
          outcome.deferred = [])) := by
  obtain ⟨outcome, hfix, hfinal, hshown⟩ := exists_outcome hreview
  rw [hfinal]
  refine ⟨outcome, hfix, ?_, ?_⟩
  · intro f hf
    exact mem_report_outcome hfix hshown hf
  · intro htree
    have hprogress := h.progress_of_fixAll htree hfix
    refine ⟨?_, hprogress.tree_eq, hprogress.fixable, (List.nodup_append'.1 hprogress.nodup).1,
      h.deferred_eq_nil htree hfix⟩
    intro t cause verbose path written
    have hlength := (hprogress.filter_report_perm h htree).length_eq
    rw [← hshown, ← Registry.deferred_eq_pending hfix, List.length_append] at hlength
    rw [Report.appliedLine, hlength]

theorem review_counts_tryGet :
    let d : Document := ⟨Node.tryGet, TypeTable.tryGet⟩
    ∃ review, d.review .builtin = .ok review ∧
      (∀ f ∈ review.shownFixed, f ∉ Registry.builtin.report d.types.oracle (review.finalTree d)) ∧
      (Report.documentText ⟨false⟩ (fun _ => "") false
        ⟨.ofText "a", .fixed review.findings (.ofText "b")⟩).out[1]? =
        some "  OK Applied 2 fix(es), wrote b" := by
  intro d
  obtain ⟨review, hreview⟩ : ∃ review, d.review .builtin = .ok review :=
    ⟨_, review_eq_ok.2 ⟨by decide +kernel, _, Registry.fixAll_tryGet, rfl⟩⟩
  obtain ⟨outcome, hfix, hleft, hcounts⟩ := review_counts Registry.isBuiltin_builtin hreview
  rw [Registry.fixAll_tryGet] at hfix
  cases hfix
  refine ⟨review, hreview, ?_, ?_⟩
  · intro f hf hreported
    exact List.not_mem_nil ((hleft f hf).1 hreported)
  · rw [(hcounts (by decide +kernel)).1 ⟨false⟩ (fun _ => "") false (.ofText "a") (.ofText "b")]
    decide +kernel

/-- So many comparisons `a == a == … == a` up to an offset, the first one innermost. -/
def chain : Nat → UInt32 → Node
  | 0, stop => ⟨⟨0, stop⟩, .identifier "a"⟩
  | k + 1, stop =>
    ⟨⟨0, stop⟩, .binary .equals (chain k (stop - 1)) ⟨⟨stop - 1, stop⟩, .identifier "a"⟩⟩

/-- A chain of 17 comparisons with all operands of value types. -/
def chained : Document where
  tree := chain 17 18
  types := .ofEntries ((List.iterate (· - 1) 18 18).flatMap fun stop =>
    [⟨⟨0, stop⟩, .known true⟩, ⟨⟨stop - 1, stop⟩, .known true⟩])

theorem fixAll_chained :
    let applied := (List.iterate (· - 1) 18 16).map fun stop =>
      ValueEquality.rule.findingAt ⟨0, stop⟩
    Registry.builtin.fixAll chained.types.oracle chained.tree =
      .ok ⟨chained.tree.fixing applied, applied, [ValueEquality.rule.findingAt ⟨0, 2⟩], []⟩ := by
  cbv

/-- The first comparison of the chain is shown as fixed and counted, and is still there. -/
theorem chained_shownFixed : chained.tree.spanViolation? = none ∧ ∃ review outcome,
    chained.review .builtin = .ok review ∧
      Registry.builtin.fixAll chained.types.oracle chained.tree = .ok outcome ∧
      (∃ f ∈ review.shownFixed,
        f ∈ Registry.builtin.report chained.types.oracle (review.finalTree chained)) ∧
      review.shownFixed.length ≠ outcome.applied.length := by
  have hvalid : chained.tree.spanViolation? = none := by decide +kernel
  obtain ⟨review, hreview⟩ : ∃ review, chained.review .builtin = .ok review :=
    ⟨_, review_eq_ok.2 ⟨hvalid, _, fixAll_chained, rfl⟩⟩
  obtain ⟨outcome, hfix, hfinal, hshown⟩ := exists_outcome hreview
  rw [fixAll_chained] at hfix
  cases hfix
  have hall : review.shownFixed =
      Registry.builtin.report chained.types.oracle chained.tree := by
    rw [hshown]
    exact List.filter_eq_self.2 fun _ _ => rfl
  have hfirst : ValueEquality.rule.findingAt ⟨0, 2⟩ ∈ review.shownFixed := by
    rw [hall]
    decide +kernel
  refine ⟨hvalid, review, _, hreview, fixAll_chained, ⟨_, hfirst, ?_⟩, ?_⟩
  · rw [hfinal]
    exact (mem_report_outcome fixAll_chained hshown hfirst).2 (List.mem_singleton.2 rfl)
  · rw [hall]
    decide +kernel

end Document

end TreeLint
