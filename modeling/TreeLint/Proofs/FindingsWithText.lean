import TreeLint.Proofs.BatchFixes
import TreeLint.Proofs.NestingPreserved
import TreeLint.Proofs.Persistence

namespace TreeLint

theorem Replacement.Fits.ordered {r : Replacement} (h : r.Fits) : r.span.start ≤ r.span.stop :=
  h.span_eq ▸ (Node.spansNest_iff.1 h.nests).1.ordered

namespace Span

theorem not_overlaps_of_stop_le_start {a b : Span} (h : a.stop ≤ b.start) : ¬ a.overlaps b := by
  rw [overlaps_iff]
  rintro ⟨-, -, -, hlt⟩
  exact UInt32.not_lt.2 h hlt

end Span

namespace Registry

variable {registry : Registry} {oracle : TypeOracle} {tree n new : Node} {f : Finding} {r : Rule}
  {fs : List Finding} {batch : Batch}

theorem span_and_category_of_synthesize (hr : r ∈ builtin.rules) (h : r.synthesize n = .ok new) :
    new.span = n.span ∧ new.category = n.category := by
  rcases mem_builtin.1 hr with rfl | rfl
  · cases ValueEquality.becomes_of_synthesize h with
    | pattern => exact ⟨rfl, rfl⟩
  · cases TryMethod.becomes_of_synthesize h with
    | method => exact ⟨rfl, rfl⟩

theorem exists_replacing_of_applyFix {t : Node} (h : registry.applyFix tree f = .ok t) :
    ∃ edits, edits.Fixes registry tree ∧ t = tree.replacing edits := by
  obtain ⟨r, target, new, hr, hnew, ht⟩ := applyFix_eq_ok.1 h
  obtain ⟨p, hp, ht⟩ := Node.substitute_eq_ok ht
  refine ⟨_, fun q new' m hnew' hm => ?_, Node.eq_replacing_of_replace? hp ht⟩
  obtain ⟨rfl, rfl⟩ := Edits.eq_of_put_eq_some hnew'
  obtain rfl : m = target := Option.some.inj (hm.symm.trans hp)
  exact ⟨r, (find?_eq_some hr.rule).1, hnew⟩

theorem IsBuiltin.exists_resolves (h : registry.IsBuiltin) (htree : tree.Contained)
    (hf : f ∈ registry.report oracle tree) : ∃ r x, registry.Resolves tree f r x := by
  obtain ⟨r, y, hy⟩ := h.exists_standsFor hf
  have hsome : (tree.preorder.find? fun n => n.span == f.span && n.kind == r.targetKind).isSome := by
    refine List.find?_isSome.2 ⟨y, hy.mem, ?_⟩
    simp [Node.span_eq_of_finding? hy.finding, (Kind.rule?_eq_some.1 hy.looks).2]
  obtain ⟨x, hx⟩ := Option.isSome_iff_exists.1 hsome
  exact ⟨r, x, hy.rule, (htree.findSpan?_eq _ _).trans hx⟩

theorem Decides.of_mem_replacements {new : Replacement} (h : registry.Decides tree none fs batch)
    (hregistry : registry.IsBuiltin) (htree : tree.SpansNest)
    (hnew : new ∈ batch.applied.map Prod.snd) :
    new.Fits ∧ new.node.category = new.kind.category ∧
      ∃ m, tree.findSpan? new.span new.kind = some m := by
  obtain ⟨⟨f, new⟩, hf, rfl⟩ := List.mem_map.1 hnew
  obtain ⟨r, x, hx, hnode, hspan, hkind⟩ := h.of_mem_applied hf
  obtain ⟨-, -, hxkind⟩ := Node.of_findSpan?_eq_some hx.node
  have hr := hregistry.subset r (find?_eq_some hx.rule).1
  obtain ⟨hnest, hnodeSpan⟩ := hx.spansNest hregistry htree hnode
  obtain ⟨-, hcategory⟩ := span_and_category_of_synthesize hr hnode
  refine ⟨⟨hnest, hnodeSpan.trans hspan.symm⟩, ?_, ?_⟩
  · rw [hcategory, Node.category, hxkind, hkind]
  · rw [hspan, hkind]
    exact ⟨x, hx.node⟩

theorem Decides.pairwise_replacements (h : registry.Decides tree none fs batch)
    (hregistry : registry.IsBuiltin) (htree : tree.SpansNest) :
    (batch.applied.map Prod.snd).Pairwise fun r s => r.span.stop ≤ s.span.start := by
  have hspan (p : Finding × Replacement) (hp : p ∈ batch.applied) : p.2.span = p.1.span := by
    obtain ⟨-, -, -, -, hspan, -⟩ := h.of_mem_applied hp
    exact hspan
  have hordered (p : Finding × Replacement) (hp : p ∈ batch.applied) :
      p.1.span.start ≤ p.1.span.stop := by
    rw [← hspan p hp]
    exact (h.of_mem_replacements hregistry htree (List.mem_map_of_mem hp)).1.ordered
  apply List.pairwise_map.2
  apply (h.pairwise_applied hordered).2.imp_of_mem
  intro p q hp hq hpq
  rwa [hspan p hp, hspan q hq]

/-- The fixes that a batch applies, all of them built from one tree, may be put into it. -/
theorem Decides.admits (h : registry.Decides tree none fs batch) (hregistry : registry.IsBuiltin)
    (htree : tree.SpansNest) (hfs : ∀ f ∈ fs, f.span.start < f.span.stop) :
    tree.Admits (batch.applied.map Prod.snd) := by
  constructor
  · intro new hnew
    obtain ⟨hfits, hcategory, -⟩ := h.of_mem_replacements hregistry htree hnew
    obtain ⟨⟨f, new⟩, hf, rfl⟩ := List.mem_map.1 hnew
    obtain ⟨-, -, -, -, hspan, -⟩ := h.of_mem_applied hf
    exact ⟨hspan ▸ hfs f (h.mem_of_applied hf), hfits.span_eq, hcategory⟩
  · exact (h.pairwise_replacements hregistry htree).imp Span.not_overlaps_of_stop_le_start
  · intro new hnew _ _ c hc
    have hfits := (h.of_mem_replacements hregistry htree hnew).1
    rw [← hfits.span_eq]
    exact (Node.spansNest_iff.1 hfits.nests).1.within c.span (List.mem_map_of_mem hc)

theorem Decides.fixes (h : registry.Decides tree none fs batch) :
    (tree.editsOf (batch.applied.map Prod.snd)).Fixes registry tree := by
  intro p new m hnew hm
  obtain ⟨s, hs, rfl, d, hd⟩ := Node.editsOf_eq_some hnew
  obtain ⟨⟨f, s⟩, hf, rfl⟩ := List.mem_map.1 hs
  obtain ⟨r, x, hx, hnode, hspan, hkind⟩ := h.of_mem_applied hf
  -- The place of the fix is that of the node which the finding resolves to.
  have hdx : d = x := by
    have hd := hd.findSpan?_eq
    rw [hspan, hkind, hx.node] at hd
    exact (Option.some.inj hd).symm
  obtain rfl : m = d := Option.some.inj (hm.symm.trans hd.subtree?_eq)
  exact ⟨r, (find?_eq_some hx.rule).1, hdx ▸ hnode⟩

/-- A batch of findings that hold text and have a node in the tree is applied, and puts its fixes in
at once. -/
theorem IsBuiltin.exists_applyAll (h : registry.IsBuiltin) (htree : tree.SpansNest)
    (hfs : ∀ f ∈ fs, f.span.start < f.span.stop ∧ ∃ r x, registry.Resolves tree f r x) :
    ∃ outcome edits, registry.applyAll tree fs = .ok outcome ∧ edits.Fixes registry tree ∧
      outcome.tree = tree.replacing edits := by
  have hsorted (f : Finding) (hf : f ∈ fs.mergeSort fun f g => f.span.outerLe g.span) :
      f.span.start < f.span.stop ∧ ∃ r x, registry.Resolves tree f r x :=
    hfs f (List.mem_mergeSort.1 hf)
  obtain ⟨batch, hbatch⟩ := exists_decides fun f hf => (hsorted f hf).2
  have hdecides := decides_of_decideAll hbatch
  have hadmits := hdecides.admits h htree fun f hf => (hsorted f hf).1
  have hreplaced := hadmits.applyReplacements_of_found htree.contained fun new hnew =>
    (hdecides.of_mem_replacements h htree hnew).2.2
  exact ⟨⟨_, batch.applied.map Prod.fst, batch.deferred, batch.failed⟩, _,
    applyAll_eq_ok.2 ⟨batch, hbatch, hreplaced, rfl, rfl, rfl⟩, hdecides.fixes, rfl⟩

/-- Fixing a tree whose spans nest succeeds as long as all findings hold text. What fixes put in at
once keep, fixing in passes keeps. -/
theorem IsBuiltin.exists_fixAll {P : Node → Prop} (h : registry.IsBuiltin)
    (htext : ∀ tree, P tree → ∀ f ∈ registry.report oracle tree, f.span.start < f.span.stop)
    (hkeeps : ∀ tree edits, P tree → edits.Fixes registry tree → P (tree.replacing edits))
    (hnest : tree.SpansNest) (htree : P tree) :
    ∃ outcome, registry.fixAll oracle tree = .ok outcome ∧ P outcome.tree := by
  have hstep (tree : Node) (failed : List (Finding × RuleError))
      (htree : tree.SpansNest ∧ P tree) : ∃ pass,
      registry.applyAll tree (registry.pending oracle tree failed) = .ok pass ∧
        pass.tree.SpansNest ∧ P pass.tree := by
    obtain ⟨hnest, htree⟩ := htree
    have hpending (f : Finding) (hf : f ∈ registry.pending oracle tree failed) :
        f.span.start < f.span.stop ∧ ∃ r x, registry.Resolves tree f r x := by
      have hf : f ∈ registry.report oracle tree := List.mem_of_mem_filter hf
      exact ⟨htext tree htree f hf, h.exists_resolves hnest.contained hf⟩
    obtain ⟨pass, edits, hpass, hfixes, hreplaced⟩ := h.exists_applyAll hnest hpending
    refine ⟨pass, hpass, h.spansNest_applyAll hnest hpass, ?_⟩
    rw [hreplaced]
    exact hkeeps tree edits htree hfixes
  obtain ⟨outcome, -, hfix, houtcome, -⟩ :=
    exists_fixPasses (fun _ tree _ _ => tree.SpansNest ∧ P tree)
      (fun _ tree _ failed => hstep tree failed) ⟨hnest, htree⟩
  exact ⟨outcome, hfix, houtcome.2⟩

end Registry

end TreeLint
