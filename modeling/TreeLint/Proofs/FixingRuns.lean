import Mathlib.Data.List.Permutation
import TreeLint.Proofs.Reports

namespace TreeLint

theorem Node.applyReplacements_nil (root : Node) : root.applyReplacements [] = .ok root := by
  rw [applyReplacements, List.mergeSort_nil]
  rfl

namespace Registry

variable {registry : Registry} {oracle : TypeOracle} {start tree : Node} {f : Finding}
  {applied fs : List Finding} {failed : List (Finding × RuleError)} {outcome : Outcome} {done : Nat}

/-- A run of fixing from the start scans the tree after so many passes, in which it has applied and
failed these findings. -/
inductive Scans (registry : Registry) (oracle : TypeOracle) (start : Node) :
    Nat → Node → List Finding → List (Finding × RuleError) → Prop where
  | first : Scans registry oracle start 0 start [] []
  | next {done : Nat} {tree : Node} {applied : List Finding}
      {failed : List (Finding × RuleError)} {pass : Outcome}
      (h : Scans registry oracle start done tree applied failed)
      (hpending : registry.pending oracle tree failed ≠ [])
      (hpass : registry.applyAll tree (registry.pending oracle tree failed) = .ok pass) :
      Scans registry oracle start (done + 1) pass.tree (applied ++ pass.applied)
        (failed ++ pass.failed)

theorem count_failed_le (h : registry.applyAll tree fs = .ok outcome) (f : Finding) :
    (outcome.failed.map Prod.fst).count f ≤ fs.count f := by
  have hsum := (perm_of_applyAll h).count_eq f
  rw [List.count_append, List.count_append] at hsum
  omega

theorem tree_eq_of_applied_eq_nil (h : registry.applyAll tree fs = .ok outcome)
    (hnone : outcome.applied = []) : outcome.tree = tree := by
  obtain ⟨batch, -, hfixed, happlied, -⟩ := applyAll_eq_ok.1 h
  rw [happlied, List.map_eq_nil_iff] at hnone
  rw [hnone, List.map_nil, Node.applyReplacements_nil] at hfixed
  exact (Except.ok.inj hfixed).symm

namespace Scans

theorem fixPasses {passes : Nat} (h : registry.Scans oracle start done tree applied failed)
    (hfix : registry.fixPasses oracle passes tree applied failed = .ok outcome) :
    ∃ n ≤ done + passes, registry.Scans oracle start n outcome.tree outcome.applied outcome.failed ∧
      outcome.deferred = registry.pending oracle outcome.tree outcome.failed := by
  induction passes generalizing done tree applied failed with
  | zero =>
    cases hfix
    exact ⟨done, Nat.le_refl _, h, rfl⟩
  | succ passes ih =>
    rw [Registry.fixPasses.eq_def] at hfix
    dsimp only at hfix
    split at hfix
    · rename_i hnone
      cases hfix
      exact ⟨done, Nat.le_add_right _ _, h, hnone.symm⟩
    · rename_i hsome
      obtain ⟨pass, hpass, hfix⟩ := bind_eq_ok.1 hfix
      obtain ⟨n, hn, hscan⟩ := ih (h.next hsome hpass) hfix
      exact ⟨n, by omega, hscan⟩

/-- All failures of one finding are of one pass. -/
theorem exists_count_failed_le (h : registry.Scans oracle start done tree applied failed)
    (f : Finding) : ∃ n ≤ done, ∃ t applied' failed',
      registry.Scans oracle start n t applied' failed' ∧
      (failed.map Prod.fst).count f ≤ (registry.report oracle t).count f := by
  induction h with
  | first => exact ⟨0, Nat.le_refl 0, start, [], [], .first, Nat.zero_le _⟩
  | @next done tree applied failed pass h hpending hpass ih =>
    have hpass := count_failed_le hpass f
    rw [pending_eq_filter] at hpass
    rw [List.map_append, List.count_append]
    by_cases hf : f ∈ failed.map Prod.fst
    · have hfiltered : f ∉ (registry.report oracle tree).filter
          fun f => decide (f ∉ failed.map Prod.fst) := by
        intro hmem
        exact absurd hf (by simpa using List.of_mem_filter hmem)
      rw [List.count_eq_zero_of_not_mem hfiltered, Nat.le_zero] at hpass
      obtain ⟨n, hn, t, applied', failed', hscan, hcount⟩ := ih
      exact ⟨n, by omega, t, applied', failed', hscan, by omega⟩
    · have hfresh := List.count_eq_zero_of_not_mem hf
      have hreport : ((registry.report oracle tree).filter
          fun f => decide (f ∉ failed.map Prod.fst)).count f ≤
            (registry.report oracle tree).count f :=
        List.filter_sublist.count_le f
      exact ⟨done, by omega, tree, applied, failed, h, by omega⟩

theorem tree_eq_start (h : registry.Scans oracle start done tree applied failed)
    (hnone : applied = []) : tree = start := by
  induction h with
  | first => rfl
  | next _ _ hpass ih =>
    obtain ⟨hbefore, hlast⟩ := List.append_eq_nil_iff.1 hnone
    exact (tree_eq_of_applied_eq_nil hpass hlast).trans (ih hbefore)

end Scans

/-- What fixing defers is what a scan of its tree reports and has not failed, a finding fails as
often as some scan has reported it, and as long as nothing is applied the tree stays as it was. -/
theorem fixAll_remaining (h : registry.fixAll oracle tree = .ok outcome) :
    (outcome.deferred = (registry.report oracle outcome.tree).filter
      fun f => decide (f ∉ outcome.failed.map Prod.fst)) ∧
    (∀ f, ∃ n ≤ maxPasses, ∃ t applied failed, registry.Scans oracle tree n t applied failed ∧
      (outcome.failed.map Prod.fst).count f ≤ (registry.report oracle t).count f) ∧
    (outcome.applied = [] → outcome.tree = tree) := by
  obtain ⟨n, hn, hscan, hdeferred⟩ := Scans.first.fixPasses h
  rw [Nat.zero_add] at hn
  refine ⟨?_, ?_, ?_⟩
  · rw [hdeferred, pending_eq_filter]
  · intro f
    obtain ⟨m, hm, t, applied, failed, ht, hcount⟩ := hscan.exists_count_failed_le f
    exact ⟨m, Nat.le_trans hm hn, t, applied, failed, ht, hcount⟩
  · intro hnone
    exact hscan.tree_eq_start hnone

/-- The method `int TryStop() { return; a == b; }`, whose bare return keeps it from being fixed. -/
def tryStop (statement : Node) : Node :=
  ⟨⟨0, 30⟩, .methodDecl [] ⟨⟨0, 3⟩, .typeRef (.predefined .int)⟩ "TryStop" []
    ⟨⟨13, 30⟩, .block [⟨⟨14, 21⟩, .returnStmt none⟩, ⟨⟨22, 29⟩, .exprStmt statement⟩]⟩⟩

theorem fixAll_remaining_tryStop :
    let a : Node := ⟨⟨22, 23⟩, .identifier "a"⟩
    let b : Node := ⟨⟨27, 28⟩, .identifier "b"⟩
    let tree := tryStop ⟨⟨22, 28⟩, .binary .equals a b⟩
    let method := TryMethod.rule.findingAt ⟨0, 30⟩
    let outcome : Outcome :=
      ⟨tryStop ⟨⟨22, 28⟩, .isPattern a ⟨⟨27, 28⟩, .constantPattern b⟩⟩,
        [ValueEquality.rule.findingAt ⟨22, 28⟩], [],
        [(method, TryMethod.unsupported ⟨14, 21⟩ "return without a value")]⟩
    builtin.fixAll TypeTable.tryGet.oracle tree = .ok outcome ∧
      (outcome.deferred = (builtin.report TypeTable.tryGet.oracle outcome.tree).filter
        fun f => decide (f ∉ outcome.failed.map Prod.fst)) ∧
      (∀ f, ∃ n ≤ maxPasses, ∃ t applied failed,
        builtin.Scans TypeTable.tryGet.oracle tree n t applied failed ∧
          (outcome.failed.map Prod.fst).count f ≤
            (builtin.report TypeTable.tryGet.oracle t).count f) ∧
      (outcome.applied = [] → outcome.tree = tree) := by
  intro a b tree method outcome
  have hfix : builtin.fixAll TypeTable.tryGet.oracle tree = .ok outcome := by
    cbv
  exact ⟨hfix, fixAll_remaining hfix⟩

end Registry

end TreeLint
