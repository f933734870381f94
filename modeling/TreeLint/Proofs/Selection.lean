import TreeLint.Proofs.Convergence

namespace TreeLint

namespace Finding

/-- The first finding has ended where the second one starts. -/
def EndsBefore (f g : Finding) : Prop := f.span.stop ≤ g.span.start

/-- The second finding starts inside the first one. -/
structure StartsIn (f g : Finding) : Prop where
  start_le : f.span.start ≤ g.span.start
  lt_stop : g.span.start < f.span.stop

end Finding

namespace Span

theorem start_le_of_outerLe {a b : Span} (h : a.outerLe b) : a.start ≤ b.start := by
  simp only [outerLe, Bool.or_eq_true, Bool.and_eq_true, decide_eq_true_eq, beq_iff_eq] at h
  rcases h with hlt | ⟨heq, -⟩
  · exact UInt32.le_of_lt hlt
  · exact UInt32.le_of_eq heq

end Span

namespace Registry

variable {registry : Registry} {tree : Node} {claimed : Option UInt32} {fs : List Finding}
  {batch : Batch} {outcome : Outcome}

theorem Decides.isChain_applied (h : registry.Decides tree claimed fs batch) :
    (∀ stop ∈ claimed, ∀ f ∈ (batch.applied.map Prod.fst).head?, stop ≤ f.span.start) ∧
      (batch.applied.map Prod.fst).IsChain Finding.EndsBefore := by
  induction h with
  | nil =>
    constructor
    · intro stop _ f hf
      cases hf
    · exact .nil
  | defer _ _ ih => exact ih
  | @apply claimed f _ _ _ _ _ hfree _ _ _ ih =>
    obtain ⟨hbehind, hchain⟩ := ih
    constructor
    · intro stop hstop g hg
      cases hg
      cases hstop
      exact UInt32.not_lt.1 fun hlt => hfree (by simpa using hlt)
    · apply List.isChain_cons.2
      exact ⟨hbehind f.span.stop rfl, hchain⟩
  | fail _ _ _ _ ih => exact ih

theorem exists_startsIn_of_applyAll {f : Finding} (h : registry.applyAll tree fs = .ok outcome)
    (hf : f ∈ outcome.deferred) : ∃ g ∈ outcome.applied, g.StartsIn f := by
  obtain ⟨batch, hbatch, -, happlied, hdeferred, -⟩ := applyAll_eq_ok.1 h
  rw [hdeferred] at hf
  have hsorted : (fs.mergeSort fun f g => f.span.outerLe g.span).Pairwise
      fun g f => g.span.start ≤ f.span.start :=
    (pairwise_outerLe_mergeSort fs).imp Span.start_le_of_outerLe
  obtain ⟨g, hg, hstart, hstop⟩ := exists_claiming_of_decideAll hbatch hsorted hf
  exact ⟨g, happlied ▸ hg, hstart, hstop⟩

/-- A batch applies, defers or fails each of its findings. It defers one only for an applied one
that it starts in, and among nested or separate findings only inside an applied one. -/
theorem applyAll_accounts (h : registry.applyAll tree fs = .ok outcome) :
    (outcome.applied ++ outcome.failed.map Prod.fst ++ outcome.deferred).Perm fs ∧
      (∀ f ∈ outcome.deferred, ∃ g ∈ outcome.applied, g.StartsIn f) ∧
      outcome.applied.IsChain Finding.EndsBefore ∧
      (Laminar fs → ∀ f ∈ outcome.deferred, ∃ g ∈ outcome.applied,
        g.span.contains f.span) := by
  refine ⟨perm_of_applyAll h, ?_, ?_, ?_⟩
  · intro f hf
    exact exists_startsIn_of_applyAll h hf
  · obtain ⟨batch, hbatch, -, happlied, -⟩ := applyAll_eq_ok.1 h
    rw [happlied]
    exact (decides_of_decideAll hbatch).isChain_applied.2
  · intro hfs f hf
    exact hfs.exists_around h hf

/-- A rule that reports every type and has no fix. -/
def typeRule : Rule := CustomRule.rule ⟨"types", .typeRef, .info, none, none⟩

/-- The type of `TryGet` comes first but has no fix, and of the two findings on its comparison the
second one waits for the first. -/
theorem applyAll_accounts_tryGet :
    let type := typeRule.findingAt ⟨0, 3⟩
    let comparison := ValueEquality.rule.findingAt ⟨22, 28⟩
    let cause := RuleError.unsupportedShape "types" ⟨0, 3⟩ "custom rule has no fix"
    let outcome : Outcome :=
      ⟨Node.tryGet.fixing [comparison], [comparison], [comparison], [(type, cause)]⟩
    applyAll ⟨[ValueEquality.rule, typeRule]⟩ Node.tryGet [comparison, comparison, type] =
        .ok outcome ∧
      (outcome.applied ++ outcome.failed.map Prod.fst ++ outcome.deferred).Perm
        [comparison, comparison, type] ∧
      (∀ f ∈ outcome.deferred, ∃ g ∈ outcome.applied, g.StartsIn f) ∧
      outcome.applied.IsChain Finding.EndsBefore ∧
      ∀ f ∈ outcome.deferred, ∃ g ∈ outcome.applied, g.span.contains f.span := by
  intro type comparison cause outcome
  have happly : applyAll ⟨[ValueEquality.rule, typeRule]⟩ Node.tryGet
      [comparison, comparison, type] = .ok outcome := by
    cbv
  have hlaminar : Laminar [comparison, comparison, type] := by
    constructor
    · decide
    · unfold Span.NestOrPart
      decide
  obtain ⟨hperm, hstarts, hchain, haround⟩ := applyAll_accounts happly
  exact ⟨happly, hperm, hstarts, hchain, haround hlaminar⟩

end Registry

end TreeLint
