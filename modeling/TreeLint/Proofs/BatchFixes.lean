import TreeLint.Proofs.ReplacementBatches
import TreeLint.Proofs.SingleFixes

namespace TreeLint

/-- What becomes of some findings of a tree when others are fixed in it: the applied ones are fixed
as well, the failed ones have no fix, and the rest is deferred. -/
structure Outcome.Settles (outcome : Outcome) (n : Node) (gs fs : List Finding) : Prop where
  tree_eq : outcome.tree = n.fixing (gs ++ outcome.applied)
  fixable : n.Fixable outcome.applied
  unfixable : n.Unfixable (outcome.failed.map Prod.fst)
  perm : (outcome.applied ++ outcome.failed.map Prod.fst ++ outcome.deferred).Perm fs

namespace Registry

variable {registry : Registry} {n x m : Node} {f : Finding} {r : Rule} {fs gs : List Finding}

theorem StandsFor.span_nonempty (h : registry.StandsFor n f r x) (hn : n.StrictlyNested) :
    f.span.start < f.span.stop := by
  rw [Node.span_eq_of_finding? h.finding]
  exact (hn x h.mem).nonempty

theorem StandsFor.applyReplacement (h : registry.StandsFor n f r x) (hn : n.StrictlyNested)
    (hgs : f ∉ gs) (hm : x.fixed? = some m) :
    (n.fixing gs).applyReplacement ⟨f.span, r.targetKind, m.mapChildren (Node.fixing gs)⟩ =
      .ok (n.fixing (f :: gs)) := by
  rw [Node.applyReplacement, Node.locate_eq_ok.2 (h.resolves hn hgs).node]
  exact h.substitute hn hgs hm

theorem mapChildren_fixing_of_precedes {done : List Finding} (hn : n.StrictlyNested)
    (hx : x ∈ n.preorder) (hm : x.fixed? = some m)
    (hdone : ∀ g ∈ done, g.span.stop ≤ x.span.start) :
    m.mapChildren (Node.fixing (done ++ gs)) = m.mapChildren (Node.fixing gs) := by
  have hxn := hn.below hx
  refine Node.mapChildren_congr_of_fixed? (Node.isPass_fixing _) (Node.isPass_fixing gs) hxn hm
    fun c hc => Node.fixing_congr (hxn.child hc) fun y hy _ => ?_
  rw [Node.chosen_append, or_iff_right]
  -- A node chosen by `done` would end before the start of the node that it lies within.
  intro hc
  obtain ⟨g, hg, hyg⟩ := hc
  have hspan := Node.span_eq_of_finding? hyg
  have hy' := Node.mem_preorder_of_child hc hy
  have hwithin := Span.contains_iff.1 (hxn.contained.within hy')
  have hnonempty := (hxn y hy').nonempty
  have hstop := hdone g hg
  rw [hspan] at hstop
  simp only [UInt32.lt_iff_toNat_lt, UInt32.le_iff_toNat_le] at *
  omega

/-- A fix that a batch has built for a finding against the tree with the findings `gs` fixed. -/
structure Built (registry : Registry) (n : Node) (gs : List Finding) (p : Finding × Replacement) :
    Prop where
  fresh : p.1 ∉ gs
  fix : ∃ r x m, registry.StandsFor n p.1 r x ∧ x.fixed? = some m ∧
    p.2 = ⟨p.1.span, r.targetKind, m.mapChildren (Node.fixing gs)⟩

theorem Built.span_eq {p : Finding × Replacement} (h : registry.Built n gs p) :
    p.2.span = p.1.span := by
  obtain ⟨r, x, m, -, -, hp⟩ := h.fix
  rw [hp]

theorem Built.span_nonempty {p : Finding × Replacement} (h : registry.Built n gs p)
    (hn : n.StrictlyNested) : p.1.span.start < p.1.span.stop := by
  obtain ⟨r, x, m, hx, -⟩ := h.fix
  exact hx.span_nonempty hn

theorem foldlM_applyReplacement {applied : List (Finding × Replacement)} (done : List Finding)
    (hn : n.StrictlyNested) (hbuilt : ∀ p ∈ applied, registry.Built n gs p)
    (hdone : ∀ g ∈ done, ∀ p ∈ applied, g.span.Precedes p.1.span)
    (happart : applied.Pairwise fun p q => p.1.span.Precedes q.1.span) :
    (applied.map Prod.snd).foldlM Node.applyReplacement (n.fixing (done ++ gs)) =
      .ok (n.fixing ((applied.map Prod.fst).reverse ++ done ++ gs)) := by
  induction applied generalizing done with
  | nil => rfl
  | cons p applied ih =>
    obtain ⟨f, new⟩ := p
    have hp := hbuilt _ List.mem_cons_self
    obtain ⟨r, x, m, hx, hm, hnew⟩ := hp.fix
    have hbefore (g : Finding) (hg : g ∈ done) : g.span.Precedes f.span :=
      hdone g hg _ List.mem_cons_self
    have hfresh : f ∉ done ++ gs := by
      intro hf
      rcases List.mem_append.1 hf with hf | hf
      · obtain ⟨hstop, hnonempty⟩ := hbefore f hf
        rw [UInt32.lt_iff_toNat_lt] at hnonempty
        rw [UInt32.le_iff_toNat_le] at hstop
        omega
      · exact hp.fresh hf
    -- The fix was built before those of `done` were put in, but they end before it starts.
    have hsame : m.mapChildren (Node.fixing (done ++ gs)) = m.mapChildren (Node.fixing gs) := by
      apply mapChildren_fixing_of_precedes hn hx.mem hm
      intro g hg
      rw [← Node.span_eq_of_finding? hx.finding]
      exact (hbefore g hg).1
    have hstep := hx.applyReplacement hn hfresh hm
    rw [hsame, ← hnew] at hstep
    obtain ⟨hfirst, hrest⟩ := List.pairwise_cons.1 happart
    have hdone' (g : Finding) (hg : g ∈ f :: done) (q : Finding × Replacement)
        (hq : q ∈ applied) : g.span.Precedes q.1.span := by
      rcases List.mem_cons.1 hg with rfl | hg
      · exact hfirst q hq
      · exact hdone g hg q (List.mem_cons_of_mem _ hq)
    have hall := ih (f :: done) (fun q hq => hbuilt q (List.mem_cons_of_mem _ hq)) hdone' hrest
    rw [List.map_cons, List.foldlM_cons, hstep]
    change List.foldlM _ (n.fixing (f :: done ++ gs)) _ = _
    rw [hall]
    simp

/-- The fixes of a batch, one behind the other, are applied as a simultaneous fix. -/
theorem applyReplacements_fixing {applied : List (Finding × Replacement)}
    (hn : n.StrictlyNested) (hbuilt : ∀ p ∈ applied, registry.Built n gs p)
    (happart : applied.Pairwise fun p q => p.1.span.Precedes q.1.span) :
    (n.fixing gs).applyReplacements (applied.map Prod.snd) =
      .ok (n.fixing (gs ++ applied.map Prod.fst)) := by
  rw [Node.applyReplacements_eq_foldlM]
  · have hall := foldlM_applyReplacement [] hn hbuilt (by simp) happart
    rw [List.nil_append] at hall
    rw [hall, Node.fixing_eq_of_mem_iff hn]
    simp [or_comm]
  · intro new hnew
    obtain ⟨p, hp, rfl⟩ := List.mem_map.1 hnew
    rw [(hbuilt p hp).span_eq]
    exact UInt32.le_of_lt ((hbuilt p hp).span_nonempty hn)
  · apply List.pairwise_map.2
    apply happart.imp_of_mem
    intro p q hp hq hpq
    rw [(hbuilt p hp).span_eq, (hbuilt q hq).span_eq]
    exact hpq.1

variable {claimed : Option UInt32} {batch : Batch}

theorem Decides.mem_of_applied {tree : Node} {p : Finding × Replacement}
    (h : registry.Decides tree claimed fs batch) (hp : p ∈ batch.applied) : p.1 ∈ fs :=
  h.sublist_applied.subset (List.mem_map_of_mem hp)

theorem Decides.mem_of_failed {tree : Node} {p : Finding × RuleError}
    (h : registry.Decides tree claimed fs batch) (hp : p ∈ batch.failed) : p.1 ∈ fs := by
  apply h.perm.mem_iff.1
  simp only [List.mem_append, List.mem_map]
  exact .inl (.inr ⟨p, hp, rfl⟩)

theorem Decides.built (h : registry.Decides (n.fixing gs) claimed fs batch)
    (hn : n.StrictlyNested) (hfs : ∀ f ∈ fs, f ∉ gs ∧ ∃ r x, registry.StandsFor n f r x) :
    ∀ p ∈ batch.applied, registry.Built n gs p := by
  intro p hp
  obtain ⟨f, new⟩ := p
  obtain ⟨hfresh, r, x, hx⟩ := hfs f (h.mem_of_applied hp)
  obtain ⟨s, target, hresolves, hnew, hspan, hkind⟩ := h.of_mem_applied hp
  obtain ⟨rfl, rfl⟩ := (hx.resolves hn hfresh).unique hresolves
  rw [hx.synthesize_eq_ok (Node.kind_mapChildren _ x),
    Node.fixed?_mapChildren (Node.isPass_fixing gs) (hn.below hx.mem),
    Option.map_eq_some_iff] at hnew
  obtain ⟨m, hm, hnode⟩ := hnew
  refine ⟨hfresh, r, x, m, hx, hm, ?_⟩
  obtain ⟨span, kind, node⟩ := new
  cases hspan
  cases hkind
  cases hnode
  rfl

theorem Decides.fixed?_eq_none (h : registry.Decides (n.fixing gs) claimed fs batch)
    (hn : n.StrictlyNested) {p : Finding × RuleError} (hp : p ∈ batch.failed)
    (hx : registry.StandsFor n p.1 r x) (hfresh : p.1 ∉ gs) : x.fixed? = none := by
  obtain ⟨f, cause⟩ := p
  obtain ⟨s, target, hresolves, hcause⟩ := h.of_mem_failed hp
  obtain ⟨rfl, rfl⟩ := (hx.resolves hn hfresh).unique hresolves
  cases hm : x.fixed? with
  | none => rfl
  | some m =>
    have hok := (hx.synthesize_eq_ok (Node.kind_mapChildren (Node.fixing gs) x)).2
      (by rw [Node.fixed?_mapChildren (Node.isPass_fixing gs) (hn.below hx.mem), hm,
        Option.map_some])
    rw [hcause] at hok
    cases hok

theorem Decides.pairwise_precedes {tree : Node} (h : registry.Decides tree claimed fs batch)
    (hnonempty : ∀ p ∈ batch.applied, p.1.span.start < p.1.span.stop) :
    batch.applied.Pairwise fun p q => p.1.span.Precedes q.1.span := by
  have hordered (p : Finding × Replacement) (hp : p ∈ batch.applied) :
      p.1.span.start ≤ p.1.span.stop :=
    UInt32.le_of_lt (hnonempty p hp)
  exact (h.pairwise_applied hordered).2.imp_of_mem fun _ hq hpq => ⟨hpq, hnonempty _ hq⟩

theorem exists_applyAll_fixing (hn : n.StrictlyNested)
    (hfs : ∀ f ∈ fs, f ∉ gs ∧ ∃ r x, registry.StandsFor n f r x) :
    ∃ outcome, registry.applyAll (n.fixing gs) fs = .ok outcome ∧ outcome.Settles n gs fs := by
  let sorted := fs.mergeSort fun f g => f.span.outerLe g.span
  have hperm : sorted.Perm fs := List.mergeSort_perm _ _
  have hsorted (f : Finding) (hf : f ∈ sorted) :
      f ∉ gs ∧ ∃ r x, registry.StandsFor n f r x :=
    hfs f (hperm.mem_iff.1 hf)
  obtain ⟨batch, hbatch⟩ : ∃ batch, registry.decideAll (n.fixing gs) none sorted = .ok batch := by
    apply exists_decides
    intro f hf
    obtain ⟨hfresh, r, x, hx⟩ := hsorted f hf
    exact ⟨r, _, hx.resolves hn hfresh⟩
  have hdecides := decides_of_decideAll hbatch
  have hbuilt := hdecides.built hn hsorted
  have hreplaced := applyReplacements_fixing hn hbuilt
    (hdecides.pairwise_precedes fun p hp => (hbuilt p hp).span_nonempty hn)
  refine ⟨⟨_, batch.applied.map Prod.fst, batch.deferred, batch.failed⟩,
    applyAll_eq_ok.2 ⟨batch, hbatch, hreplaced, rfl, rfl, rfl⟩, rfl, ?_, ?_,
    hdecides.perm.trans hperm⟩
  · intro m hm hc
    obtain ⟨f, hf, hmf⟩ := hc
    obtain ⟨p, hp, rfl⟩ := List.mem_map.1 hf
    obtain ⟨r, x, y, hx, hy, -⟩ := (hbuilt p hp).fix
    rw [hx.eq_of_finding? hn hm hmf, hy]
    exact Option.some_ne_none y
  · intro m hm hc
    obtain ⟨f, hf, hmf⟩ := hc
    obtain ⟨p, hp, rfl⟩ := List.mem_map.1 hf
    obtain ⟨hfresh, r, x, hx⟩ := hsorted p.1 (hdecides.mem_of_failed hp)
    rw [hx.eq_of_finding? hn hm hmf]
    exact hdecides.fixed?_eq_none hn hp hx hfresh

end Registry

end TreeLint
