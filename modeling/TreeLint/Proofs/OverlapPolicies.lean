import TreeLint.Proofs.Selection

namespace TreeLint

namespace Span

variable {a b : Span}

/-- The first span is selected before the second one, which starts where it has ended or later. -/
structure SelectedBefore (a b : Span) : Prop where
  outerLe : a.outerLe b
  stop_le_start : a.stop ≤ b.start

/-- Whichever of two spans was selected first, in the order of the check neither starts inside the
other. -/
theorem stop_le_start_of_le (hle : a.le b) (h : a.SelectedBefore b ∨ b.SelectedBefore a) :
    a.stop ≤ b.start := by
  rcases h with h | h
  · exact h.stop_le_start
  · -- Both start at one offset, and the one selected first is the longer one.
    obtain ⟨houter, hstop⟩ := h
    simp only [le, outerLe, Bool.or_eq_true, Bool.and_eq_true, decide_eq_true_eq, beq_iff_eq,
      UInt32.lt_iff_toNat_lt, UInt32.le_iff_toNat_le, ← UInt32.toNat_inj] at *
    omega

theorem pairwise_stop_le_start {ss : List Span} (hchain : ss.IsChain fun a b => a.stop ≤ b.start)
    (hstarts : ss.Pairwise fun a b => a.start ≤ b.start) :
    ss.Pairwise fun a b => a.stop ≤ b.start := by
  induction ss with
  | nil => exact .nil
  | cons a ss ih =>
    obtain ⟨-, hrest⟩ := List.pairwise_cons.1 hstarts
    apply List.pairwise_cons.2
    constructor
    · cases ss with
      | nil => simp
      | cons b ss =>
        have hab : a.stop ≤ b.start := (List.isChain_cons_cons.1 hchain).1
        intro c hc
        rcases List.mem_cons.1 hc with rfl | hc
        · exact hab
        · exact UInt32.le_trans hab ((List.pairwise_cons.1 hrest).1 c hc)
    · exact ih hchain.tail hrest

end Span

namespace Node

variable {root target new : Node} {r : Replacement} {rs : List Replacement}

/-- The check accepts what was selected, in whatever order it is given. -/
theorem overlapOffset?_mergeSort
    (h : (rs.map Replacement.span).Pairwise Span.SelectedBefore) :
    overlapOffset? (rs.mergeSort fun r s => r.span.le s.span) = none := by
  have hselected : (rs.mergeSort fun r s => r.span.le s.span).Pairwise
      fun r s => r.span.SelectedBefore s.span ∨ s.span.SelectedBefore r.span := by
    apply ((List.mergeSort_perm rs _).pairwise_iff Or.symm).2
    exact (List.pairwise_map.1 h).imp Or.inl
  apply overlapOffset?_eq_none_iff.2
  apply List.Pairwise.isChain
  apply ((pairwise_le_mergeSort rs).and hselected).imp
  rintro r s ⟨hle, hrs⟩
  exact Span.stop_le_start_of_le hle hrs

theorem substitute_ne_overlapping (offset : UInt32) :
    root.substitute target new ≠ .error (.overlapping offset) := by
  rw [substitute]
  split
  · simp
  · split
    · simp
    · simp

theorem applyReplacement_ne_overlapping (offset : UInt32) :
    root.applyReplacement r ≠ .error (.overlapping offset) := by
  cases hm : root.findSpan? r.span r.kind with
  | none =>
    rw [applyReplacement_of_findSpan?_eq_none hm]
    simp
  | some m =>
    rw [applyReplacement, locate_eq_ok.2 hm]
    exact substitute_ne_overlapping offset

theorem foldlM_applyReplacement_ne_overlapping (offset : UInt32) :
    rs.foldlM applyReplacement root ≠ .error (.overlapping offset) := by
  induction rs generalizing root with
  | nil => simp [pure, Except.pure]
  | cons r rs ih =>
    intro h
    rw [List.foldlM_cons, bind_eq_error] at h
    rcases h with h | ⟨t, -, h⟩
    · exact applyReplacement_ne_overlapping offset h
    · exact ih h

theorem overlapOffset?_eq_some_of_applyReplacements {offset : UInt32}
    (h : root.applyReplacements rs = .error (.overlapping offset)) :
    overlapOffset? (rs.mergeSort fun r s => r.span.le s.span) = some offset := by
  rw [applyReplacements] at h
  split at h
  · rename_i found hfound
    cases h
    exact hfound
  · exact absurd h (foldlM_applyReplacement_ne_overlapping offset)

end Node

namespace Registry

variable {registry : Registry} {tree : Node} {claimed : Option UInt32} {fs : List Finding}
  {batch : Batch} {e : FixError}

theorem Decides.map_span_replacements (h : registry.Decides tree claimed fs batch) :
    (batch.applied.map Prod.snd).map Replacement.span =
      (batch.applied.map Prod.fst).map Finding.span := by
  rw [List.map_map, List.map_map]
  apply List.map_congr_left
  intro p hp
  obtain ⟨-, -, -, -, hspan, -⟩ := h.of_mem_applied hp
  exact hspan

theorem Decides.pairwise_selectedBefore (h : registry.Decides tree claimed fs batch)
    (hsorted : fs.Pairwise fun f g => f.span.outerLe g.span) :
    ((batch.applied.map Prod.snd).map Replacement.span).Pairwise Span.SelectedBefore := by
  have happlied : (batch.applied.map Prod.fst).Pairwise fun f g => f.span.outerLe g.span :=
    hsorted.sublist h.sublist_applied
  have hspans : ((batch.applied.map Prod.fst).map Finding.span).Pairwise fun a b => a.outerLe b :=
    List.pairwise_map.2 happlied
  have hends : ((batch.applied.map Prod.fst).map Finding.span).Pairwise
      fun a b => a.stop ≤ b.start := by
    apply Span.pairwise_stop_le_start
    · exact (List.isChain_map Finding.span).2 h.isChain_applied.2
    · exact hspans.imp Span.start_le_of_outerLe
  rw [h.map_span_replacements]
  exact (hspans.and hends).imp fun hab => ⟨hab.1, hab.2⟩

theorem ruleFor_eq_error {f : Finding} (h : registry.ruleFor f = .error e) :
    e = .unknownRule f.ruleId := by
  rw [ruleFor] at h
  split at h
  · cases h
  · cases h
    rfl

theorem targetOf_eq_error {f : Finding} {r : Rule} (h : targetOf tree r f = .error e) :
    e = .substitution (.notFound r.targetKind f.span) := by
  rw [targetOf, mapError_eq_error, Node.locate] at h
  obtain ⟨cause, hcause, rfl⟩ := h
  split at hcause
  · cases hcause
  · cases hcause
    rfl

theorem decideAll_eq_error (h : registry.decideAll tree claimed fs = .error e) :
    ∃ f ∈ fs, e = .unknownRule f.ruleId ∨ ∃ kind, e = .substitution (.notFound kind f.span) := by
  induction fs generalizing claimed with
  | nil => cases h
  | cons f fs ih =>
    have hlater {claimed : Option UInt32} {finish : Batch → Batch}
        (h : (registry.decideAll tree claimed fs >>= fun batch => pure (finish batch)) =
          .error e) :
        ∃ g ∈ f :: fs,
          e = .unknownRule g.ruleId ∨ ∃ kind, e = .substitution (.notFound kind g.span) := by
      rcases bind_eq_error.1 h with h | ⟨batch, -, h⟩
      · obtain ⟨g, hg, he⟩ := ih h
        exact ⟨g, List.mem_cons_of_mem f hg, he⟩
      · cases h
    rw [decideAll] at h
    split at h
    · exact hlater h
    · rcases bind_eq_error.1 h with h | ⟨r, -, h⟩
      · exact ⟨f, List.mem_cons_self, .inl (ruleFor_eq_error h)⟩
      · rcases bind_eq_error.1 h with h | ⟨target, -, h⟩
        · exact ⟨f, List.mem_cons_self, .inr ⟨r.targetKind, targetOf_eq_error h⟩⟩
        · split at h
          · exact hlater h
          · exact hlater h

/-- The check on overlaps never refuses what a batch selects. -/
theorem applyAll_without_overlap (registry : Registry) (tree : Node) (fs : List Finding) :
    (∀ batch, registry.decideAll tree none (fs.mergeSort fun f g => f.span.outerLe g.span) =
        .ok batch →
      Node.overlapOffset?
        ((batch.applied.map Prod.snd).mergeSort fun r s => r.span.le s.span) = none) ∧
    ∀ offset, registry.applyAll tree fs ≠ .error (.substitution (.overlapping offset)) := by
  have haccepted (batch : Batch) (hbatch : registry.decideAll tree none
      (fs.mergeSort fun f g => f.span.outerLe g.span) = .ok batch) :
      Node.overlapOffset?
        ((batch.applied.map Prod.snd).mergeSort fun r s => r.span.le s.span) = none := by
    apply Node.overlapOffset?_mergeSort
    exact (decides_of_decideAll hbatch).pairwise_selectedBefore (pairwise_outerLe_mergeSort fs)
  constructor
  · exact haccepted
  · intro offset h
    cases hbatch : registry.decideAll tree none
        (fs.mergeSort fun f g => f.span.outerLe g.span) with
    | error e =>
      rw [applyAll, hbatch] at h
      cases h
      obtain ⟨f, -, hunknown | ⟨kind, hgone⟩⟩ := decideAll_eq_error hbatch
      · cases hunknown
      · cases hgone
    | ok batch =>
      obtain ⟨cause, hcause, he⟩ := (applyAll_eq_error hbatch).1 h
      cases he
      have hrefused := Node.overlapOffset?_eq_some_of_applyReplacements hcause
      rw [haccepted batch hbatch] at hrefused
      cases hrefused

/-- A rule that puts one name in the place of all others. -/
def renamingRule : Rule :=
  CustomRule.rule ⟨"names", .identifier, .info, none, some ⟨⟨5, 5⟩, .identifier "c"⟩⟩

theorem applyAll_without_overlap_inverted :
    let tree : Node :=
      ⟨⟨0, 9⟩, .assignment ⟨⟨5, 5⟩, .identifier "a"⟩ ⟨⟨5, 2⟩, .identifier "b"⟩⟩
    let empty := renamingRule.findingAt ⟨5, 5⟩
    let inverted := renamingRule.findingAt ⟨5, 2⟩
    let new (span : Span) : Replacement := ⟨span, .identifier, ⟨⟨5, 5⟩, .identifier "c"⟩⟩
    decideAll ⟨[renamingRule]⟩ tree none [empty, empty, inverted] =
        .ok ⟨[(empty, new ⟨5, 5⟩), (empty, new ⟨5, 5⟩), (inverted, new ⟨5, 2⟩)], [], []⟩ ∧
      Node.overlapOffset? ([new ⟨5, 5⟩, new ⟨5, 5⟩, new ⟨5, 2⟩].mergeSort
        fun r s => r.span.le s.span) = none ∧
      ∀ offset, applyAll ⟨[renamingRule]⟩ tree [inverted, empty, empty] ≠
        .error (.substitution (.overlapping offset)) := by
  intro tree empty inverted new
  have hsorted : [inverted, empty, empty].mergeSort (fun f g => f.span.outerLe g.span) =
      [empty, empty, inverted] := by
    cbv
  have hbatch : decideAll ⟨[renamingRule]⟩ tree none [empty, empty, inverted] =
      .ok ⟨[(empty, new ⟨5, 5⟩), (empty, new ⟨5, 5⟩), (inverted, new ⟨5, 2⟩)], [], []⟩ := by
    cbv
  obtain ⟨haccepted, hnever⟩ :=
    applyAll_without_overlap ⟨[renamingRule]⟩ tree [inverted, empty, empty]
  rw [hsorted] at haccepted
  exact ⟨hbatch, haccepted _ hbatch, hnever⟩

end Registry

end TreeLint
