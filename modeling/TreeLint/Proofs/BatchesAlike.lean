import TreeLint.Proofs.FixingRuns
import TreeLint.Proofs.OverlapPolicies

namespace TreeLint

theorem mergeSort_perm_mergeSort {α : Type} {le : α → α → Bool} {xs ys : List α} (h : xs.Perm ys) :
    (xs.mergeSort le).Perm (ys.mergeSort le) :=
  (List.mergeSort_perm xs le).trans (h.trans (List.mergeSort_perm ys le).symm)

namespace Span

variable {a b : Span}

theorem le_antisymm (hab : a.le b) (hba : b.le a) : a = b := by
  obtain ⟨s, t⟩ := a
  obtain ⟨s', t'⟩ := b
  simp only [le, Bool.or_eq_true, Bool.and_eq_true, decide_eq_true_eq, beq_iff_eq, mk.injEq,
    UInt32.lt_iff_toNat_lt, UInt32.le_iff_toNat_le, ← UInt32.toNat_inj] at *
  omega

theorem outerLe_antisymm (hab : a.outerLe b) (hba : b.outerLe a) : a = b := by
  obtain ⟨s, t⟩ := a
  obtain ⟨s', t'⟩ := b
  simp only [outerLe, Bool.or_eq_true, Bool.and_eq_true, decide_eq_true_eq, beq_iff_eq, mk.injEq,
    UInt32.lt_iff_toNat_lt, UInt32.le_iff_toNat_le, ← UInt32.toNat_inj] at *
  omega

theorem start_le_of_le (h : a.le b) : a.start ≤ b.start := by
  simp only [le, Bool.or_eq_true, Bool.and_eq_true, decide_eq_true_eq, beq_iff_eq] at h
  rcases h with hlt | ⟨heq, -⟩
  · exact UInt32.le_of_lt hlt
  · exact UInt32.le_of_eq heq

theorem eq_of_sorted {α : Type} {key : α → Span} {before : Span → Span → Prop}
    (hantisymm : ∀ {a b}, before a b → before b a → a = b) {xs ys : List α} (h : xs.Perm ys)
    (hdifferent : (xs.map key).Nodup) (hxs : xs.Pairwise fun x y => before (key x) (key y))
    (hys : ys.Pairwise fun x y => before (key x) (key y)) : xs = ys := by
  refine List.Perm.eq_of_pairwise (fun x y hx hy hxy hyx => ?_) hxs hys h
  exact List.inj_on_of_nodup_map hdifferent hx (h.mem_iff.2 hy) (hantisymm hxy hyx)

end Span

namespace Node

variable {root : Node} {rs ss : List Replacement}

theorem applyReplacements_singleton (root : Node) (r : Replacement) :
    root.applyReplacements [r] = root.applyReplacement r := by
  rw [applyReplacements, List.mergeSort_singleton]
  change [r].foldlM applyReplacement root = root.applyReplacement r
  rw [List.foldlM_cons]
  exact bind_pure (root.applyReplacement r)

theorem overlapOffset?_congr (h : rs.map Replacement.span = ss.map Replacement.span) :
    overlapOffset? rs = overlapOffset? ss := by
  induction rs generalizing ss with
  | nil =>
    rw [List.map_eq_nil_iff.1 h.symm]
  | cons r rs ih =>
    cases ss with
    | nil => cases h
    | cons s ss =>
      obtain ⟨hr, hrest⟩ := List.cons.inj h
      cases rs with
      | nil =>
        rw [List.map_eq_nil_iff.1 hrest.symm]
        rfl
      | cons r' rs =>
        cases ss with
        | nil => cases hrest
        | cons s' ss =>
          rw [overlapOffset?, overlapOffset?, hr, (List.cons.inj hrest).1, ih hrest]

theorem map_span_mergeSort (h : rs.Perm ss) :
    (rs.mergeSort fun r s => r.span.le s.span).map Replacement.span =
      (ss.mergeSort fun r s => r.span.le s.span).map Replacement.span := by
  apply List.Perm.eq_of_pairwise fun _ _ _ _ => Span.le_antisymm
  · exact List.pairwise_map.2 (pairwise_le_mergeSort rs)
  · exact List.pairwise_map.2 (pairwise_le_mergeSort ss)
  · exact (mergeSort_perm_mergeSort h).map Replacement.span

/-- The replacements that share a span replace a node with text. -/
def SharedHoldText (rs : List Replacement) : Prop :=
  rs.Pairwise fun r s => r.span = s.span → r.span.start < r.span.stop

instance : DecidablePred SharedHoldText := fun rs =>
  inferInstanceAs (Decidable (rs.Pairwise fun r s => r.span = s.span → r.span.start < r.span.stop))

theorem SharedHoldText.perm (hshared : SharedHoldText rs) (h : rs.Perm ss) : SharedHoldText ss := by
  refine (h.pairwise_iff ?_).1 hshared
  intro r s hrs hspan
  exact hspan ▸ hrs hspan.symm

theorem SharedHoldText.nodup (hshared : SharedHoldText rs)
    (haccepted : overlapOffset? (rs.mergeSort fun r s => r.span.le s.span) = none) :
    ((rs.mergeSort fun r s => r.span.le s.span).map Replacement.span).Nodup := by
  have hbehind : ((rs.mergeSort fun r s => r.span.le s.span).map Replacement.span).Pairwise
      fun a b => a.stop ≤ b.start := by
    apply Span.pairwise_stop_le_start
    · exact (List.isChain_map Replacement.span).2 (overlapOffset?_eq_none_iff.1 haccepted)
    · exact List.pairwise_map.2 ((pairwise_le_mergeSort rs).imp Span.start_le_of_le)
  have hsorted := hshared.perm (List.mergeSort_perm rs fun r s => r.span.le s.span).symm
  apply List.pairwise_map.2
  refine ((List.pairwise_map.1 hbehind).and hsorted).imp ?_
  rintro r s ⟨hstop, htext⟩ hspan
  exact UInt32.not_lt.2 hstop (hspan ▸ htext hspan)

/-- A batch of replacements is applied, or refused, alike in every order. -/
theorem SharedHoldText.applyReplacements_perm (hshared : SharedHoldText rs) (h : rs.Perm ss)
    (root : Node) : root.applyReplacements rs = root.applyReplacements ss := by
  have hcheck : overlapOffset? (rs.mergeSort fun r s => r.span.le s.span) =
      overlapOffset? (ss.mergeSort fun r s => r.span.le s.span) :=
    overlapOffset?_congr (map_span_mergeSort h)
  rw [applyReplacements, applyReplacements, ← hcheck]
  cases hrefused : overlapOffset? (rs.mergeSort fun r s => r.span.le s.span) with
  | some offset => rfl
  | none =>
    have hsorted : (rs.mergeSort fun r s => r.span.le s.span) =
        ss.mergeSort fun r s => r.span.le s.span :=
      Span.eq_of_sorted Span.le_antisymm (mergeSort_perm_mergeSort h) (hshared.nodup hrefused)
        (pairwise_le_mergeSort rs) (pairwise_le_mergeSort ss)
    rw [hsorted]

end Node

/-- The end of a batch of one finding, from the end of the single fix of that finding. -/
def Outcome.ofFix (tree : Node) (f : Finding) : Except FixError Node → Except FixError Outcome
  | .ok fixed => .ok ⟨fixed, [f], [], []⟩
  | .error (.rule cause) => .ok ⟨tree, [], [], [(f, cause)]⟩
  | .error (.unknownRule id) => .error (.unknownRule id)
  | .error (.substitution cause) => .error (.substitution cause)

namespace Registry

variable {registry : Registry} {tree target : Node} {f : Finding} {fs gs : List Finding} {r : Rule}

theorem Resolves.decideAll_singleton (h : registry.Resolves tree f r target) :
    registry.decideAll tree none [f] =
      match r.synthesize target with
      | .ok new => .ok ⟨[(f, ⟨f.span, r.targetKind, new⟩)], [], []⟩
      | .error cause => .ok ⟨[], [], [(f, cause)]⟩ := by
  rw [decideAll, if_neg (by simp)]
  simp only [bind, Except.bind, h.ruleFor, h.targetOf]
  cases r.synthesize target with
  | ok new => rfl
  | error cause => rfl

theorem Resolves.applyAll_singleton (h : registry.Resolves tree f r target) :
    registry.applyAll tree [f] = Outcome.ofFix tree f (registry.applyFix tree f) := by
  rw [applyAll, List.mergeSort_singleton, h.decideAll_singleton, h.applyFix]
  cases r.synthesize target with
  | error cause =>
    change ((tree.applyReplacements []).mapError _ >>= _) = _
    rw [Node.applyReplacements_nil]
    rfl
  | ok new =>
    -- The replacement is located by span and kind once more, at the node that it was built from.
    change ((tree.applyReplacements [⟨f.span, r.targetKind, new⟩]).mapError _ >>= _) =
      Outcome.ofFix tree f ((tree.substitute target new).mapError _)
    rw [Node.applyReplacements_singleton, Node.applyReplacement, Node.locate_eq_ok.2 h.node]
    change ((tree.substitute target new).mapError _ >>= _) = _
    cases tree.substitute target new with
    | error cause => rfl
    | ok fixed => rfl

theorem applyAll_singleton (registry : Registry) (tree : Node) (f : Finding) :
    registry.applyAll tree [f] = Outcome.ofFix tree f (registry.applyFix tree f) := by
  cases hr : registry.ruleFor f with
  | error e =>
    obtain rfl := ruleFor_eq_error hr
    rw [applyAll, List.mergeSort_singleton, decideAll, if_neg (by simp), applyFix, hr]
    rfl
  | ok r =>
    cases htarget : targetOf tree r f with
    | error e =>
      obtain rfl := targetOf_eq_error htarget
      rw [applyAll, List.mergeSort_singleton, decideAll, if_neg (by simp), applyFix, hr]
      change ((targetOf tree r f >>= _) >>= _) = Outcome.ofFix tree f (targetOf tree r f >>= _)
      rw [htarget]
      rfl
    | ok target =>
      exact Resolves.applyAll_singleton ⟨ruleFor_eq_ok.1 hr, targetOf_eq_ok.1 htarget⟩

/-- The batch of one finding applies it when the single fix succeeds, fails it with the tree as it
was when its rule has no fix, and ends with the same error otherwise. -/
theorem applyFix_alike_singleton (registry : Registry) (tree : Node) (f : Finding) :
    (∀ fixed, registry.applyFix tree f = .ok fixed ↔
      registry.applyAll tree [f] = .ok ⟨fixed, [f], [], []⟩) ∧
    (∀ cause, registry.applyFix tree f = .error (.rule cause) ↔
      ∃ outcome, registry.applyAll tree [f] = .ok outcome ∧ outcome.tree = tree ∧
        outcome.failed = [(f, cause)]) ∧
    (∀ id, registry.applyFix tree f = .error (.unknownRule id) ↔
      registry.applyAll tree [f] = .error (.unknownRule id)) ∧
    (∀ cause, registry.applyFix tree f = .error (.substitution cause) ↔
      registry.applyAll tree [f] = .error (.substitution cause)) ∧
    ∀ cause, registry.applyAll tree [f] ≠ .error (.rule cause) := by
  rw [applyAll_singleton]
  cases registry.applyFix tree f with
  | ok fixed => simp [Outcome.ofFix]
  | error e =>
    cases e with
    | unknownRule id => simp [Outcome.ofFix]
    | rule cause => simp [Outcome.ofFix]
    | substitution cause => simp [Outcome.ofFix]

theorem mergeSort_outerLe_of_perm (hdifferent : (fs.map Finding.span).Nodup) (h : fs.Perm gs) :
    (fs.mergeSort fun f g => f.span.outerLe g.span) =
      gs.mergeSort fun f g => f.span.outerLe g.span := by
  apply Span.eq_of_sorted Span.outerLe_antisymm (mergeSort_perm_mergeSort h)
  · exact ((List.mergeSort_perm fs _).map Finding.span).nodup_iff.2 hdifferent
  · exact pairwise_outerLe_mergeSort fs
  · exact pairwise_outerLe_mergeSort gs

/-- Findings with different spans, and replacements of which none share a span without text, come
out the same in whatever order they are handed over. -/
theorem batches_alike_of_perm :
    (∀ (registry : Registry) tree fs gs, (fs.map Finding.span).Nodup → fs.Perm gs →
      registry.applyAll tree fs = registry.applyAll tree gs) ∧
    ∀ (root : Node) rs ss, Node.SharedHoldText rs → rs.Perm ss →
      root.applyReplacements rs = root.applyReplacements ss := by
  constructor
  · intro registry tree fs gs hdifferent h
    rw [applyAll, applyAll, mergeSort_outerLe_of_perm hdifferent h]
  · intro root rs ss hshared h
    exact hshared.applyReplacements_perm h root

theorem batches_alike_of_perm_tryGet :
    let comparison := ValueEquality.rule.findingAt ⟨22, 28⟩
    let method := TryMethod.rule.findingAt ⟨0, 30⟩
    let operand (name : String) : Replacement :=
      ⟨⟨27, 28⟩, .identifier, ⟨⟨27, 28⟩, .identifier name⟩⟩
    ([comparison, method].map Finding.span).Nodup ∧
      (∃ outcome, builtin.applyAll Node.tryGet [comparison, method] = .ok outcome ∧
        builtin.applyAll Node.tryGet [method, comparison] = .ok outcome ∧
        outcome.deferred = [comparison]) ∧
      Node.SharedHoldText [operand "c", operand "d"] ∧
      Node.tryGet.applyReplacements [operand "c", operand "d"] = .error (.overlapping 27) ∧
      Node.tryGet.applyReplacements [operand "d", operand "c"] = .error (.overlapping 27) := by
  intro comparison method operand
  have hdifferent : ([comparison, method].map Finding.span).Nodup := by decide
  have hshared : Node.SharedHoldText [operand "c", operand "d"] := by decide
  obtain ⟨hfindings, hreplacements⟩ := batches_alike_of_perm
  have happly : ∃ outcome, builtin.applyAll Node.tryGet [comparison, method] = .ok outcome ∧
      outcome.deferred = [comparison] := ⟨_, by cbv, by cbv⟩
  obtain ⟨outcome, houtcome, hdeferred⟩ := happly
  have hrefused : Node.tryGet.applyReplacements [operand "c", operand "d"] =
      .error (.overlapping 27) := by
    cbv
  refine ⟨hdifferent, ⟨outcome, houtcome, ?_, hdeferred⟩, hshared, hrefused, ?_⟩
  · rw [← hfindings builtin Node.tryGet _ _ hdifferent (List.Perm.swap method comparison [])]
    exact houtcome
  · rw [← hreplacements Node.tryGet _ _ hshared (List.Perm.swap (operand "d") (operand "c") [])]
    exact hrefused

end Registry

end TreeLint
