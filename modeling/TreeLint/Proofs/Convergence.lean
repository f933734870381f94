import TreeLint.Proofs.FixingInPasses

namespace TreeLint

namespace Span

variable {a b c d : Span} {offset : UInt32}

/-- The offset lies in the span. -/
def covers (s : Span) (offset : UInt32) : Bool :=
  decide (s.start ≤ offset) && decide (offset < s.stop)

/-- One of the two spans lies within the other, or they share no offset. -/
def NestOrPart (a b : Span) : Prop := a.contains b ∨ b.contains a ∨ ¬ a.overlaps b

/-- The first span ends before the second one starts, or the second one lies within it. -/
def EndsOrContains (a b : Span) : Prop := a.stop ≤ b.start ∨ a.contains b

theorem outerLe_trans (hab : a.outerLe b) (hbc : b.outerLe c) : a.outerLe c := by
  simp only [outerLe, Bool.or_eq_true, Bool.and_eq_true, decide_eq_true_eq, beq_iff_eq,
    UInt32.lt_iff_toNat_lt, UInt32.le_iff_toNat_le, ← UInt32.toNat_inj] at *
  omega

theorem outerLe_total (a b : Span) : (a.outerLe b || b.outerLe a) = true := by
  simp only [outerLe, Bool.or_eq_true, Bool.and_eq_true, decide_eq_true_eq, beq_iff_eq,
    UInt32.lt_iff_toNat_lt, UInt32.le_iff_toNat_le, ← UInt32.toNat_inj]
  omega

theorem covers_start (h : a.start < a.stop) : a.covers a.start := by
  simp [covers, h]

theorem covers_of_contains (h : a.contains b) (hb : b.covers offset) : a.covers offset := by
  simp only [contains, covers, Bool.and_eq_true, decide_eq_true_eq, UInt32.lt_iff_toNat_lt,
    UInt32.le_iff_toNat_le] at *
  omega

theorem overlaps_of_within (h : c.overlaps d) (ha : a.contains c) (hb : b.contains d)
    (hc : c.start < c.stop) (hd : d.start < d.stop) : a.overlaps b := by
  rw [overlaps_iff] at *
  rw [contains_iff] at ha hb
  simp only [ne_eq, ← UInt32.toNat_inj, UInt32.lt_iff_toNat_lt, UInt32.le_iff_toNat_le] at *
  omega

theorem NestOrPart.endsOrContains (h : a.NestOrPart b) (hab : a.outerLe b) (hb : b.start < b.stop) :
    a.EndsOrContains b := by
  rw [NestOrPart, overlaps_iff, contains_iff, contains_iff] at h
  rw [EndsOrContains, contains_iff]
  simp only [outerLe, Bool.or_eq_true, Bool.and_eq_true, decide_eq_true_eq, beq_iff_eq, ne_eq,
    UInt32.lt_iff_toNat_lt, UInt32.le_iff_toNat_le, ← UInt32.toNat_inj] at *
  omega

theorem EndsOrContains.contains (h : a.EndsOrContains b) (hstart : b.start < a.stop) :
    a.contains b := by
  rcases h with h | h
  · exact absurd hstart (UInt32.not_lt.2 h)
  · exact h

end Span

namespace Node

variable {n x y : Node}

theorem StrictlyNested.nestOrPart (h : n.StrictlyNested) (hx : x ∈ n.preorder)
    (hy : y ∈ n.preorder) : x.span.NestOrPart y.span := by
  induction n using induction_children with
  | h n ih =>
    rcases mem_preorder.1 hx with rfl | ⟨c, hc, hxc⟩
    · exact .inl (h.contained.within hy)
    rcases mem_preorder.1 hy with rfl | ⟨d, hd, hyd⟩
    · exact .inr (.inl (h.contained.within hx))
    by_cases hcd : c = d
    · exact ih c hc (h.child hc) hxc (hcd ▸ hyd)
    · -- Nodes below two siblings share no offset, as the siblings do not.
      have : Std.Symm fun a b : Node => ¬ a.span.overlaps b.span :=
        ⟨fun _ _ hab hba => hab (Span.overlaps_comm.1 hba)⟩
      have hapart : ¬ c.span.overlaps d.span := h.self.apart.forall hc hd hcd
      apply Or.inr
      apply Or.inr
      intro hxy
      apply hapart
      exact Span.overlaps_of_within hxy ((h.child hc).contained.within hxc)
        ((h.child hd).contained.within hyd) (h x hx).nonempty (h y hy).nonempty

end Node

/-- The number of findings around an offset. -/
def depthAt (fs : List Finding) (offset : UInt32) : Nat :=
  fs.countP fun f => f.span.covers offset

section Depth

variable {f : Finding} {fs gs : List Finding} {offset : UInt32}

theorem depthAt_append : depthAt (fs ++ gs) offset = depthAt fs offset + depthAt gs offset :=
  List.countP_append

theorem depthAt_perm (h : fs.Perm gs) (offset : UInt32) :
    depthAt fs offset = depthAt gs offset :=
  h.countP_eq _

theorem depthAt_pos : 0 < depthAt fs offset ↔ ∃ f ∈ fs, f.span.covers offset := List.countP_pos_iff

theorem eq_nil_of_depthAt_eq_zero (hfs : ∀ f ∈ fs, f.span.start < f.span.stop)
    (h : ∀ offset, depthAt fs offset = 0) : fs = [] := by
  cases fs with
  | nil => rfl
  | cons f fs =>
    have hpos : 0 < depthAt (f :: fs) f.span.start :=
      depthAt_pos.2 ⟨f, List.mem_cons_self, Span.covers_start (hfs f List.mem_cons_self)⟩
    rw [h] at hpos
    exact absurd hpos (Nat.lt_irrefl 0)

end Depth

namespace Registry

variable {registry : Registry} {types : TypeTable} {start tree : Node} {f : Finding}
  {applied fs : List Finding} {failed : List (Finding × RuleError)} {batch : Batch}
  {outcome pass : Outcome} {last : Option Finding} {passes : Nat}

/-- A finding is deferred only behind the last finding applied before it, and where that one has not
ended yet. -/
theorem Decides.exists_claiming {R : Finding → Finding → Prop}
    (h : registry.Decides tree (last.map fun g => g.span.stop) fs batch)
    (hlast : ∀ g ∈ last, ∀ f ∈ fs, R g f) (hfs : fs.Pairwise R) (hf : f ∈ batch.deferred) :
    ∃ g, (g ∈ last ∨ g ∈ batch.applied.map Prod.fst) ∧ R g f ∧ f.span.start < g.span.stop := by
  generalize hclaimed : (last.map fun g => g.span.stop) = claimed at h
  induction h generalizing last with
  | nil => cases hf
  | @defer claimed e fs batch hinside _ ih =>
    obtain ⟨-, hrest⟩ := List.pairwise_cons.1 hfs
    rcases List.mem_cons.1 hf with rfl | hf
    · subst hclaimed
      cases last with
      | none => cases hinside
      | some g => exact ⟨g, .inl rfl, hlast g rfl f List.mem_cons_self, by simpa using hinside⟩
    · exact ih (fun g hg f hf => hlast g hg f (List.mem_cons_of_mem e hf)) hrest hf hclaimed
  | @apply claimed e fs batch r target node hfree hr hnode _ ih =>
    obtain ⟨hfirst, hrest⟩ := List.pairwise_cons.1 hfs
    have hself : ∀ g ∈ some e, ∀ f ∈ fs, R g f := by simpa using hfirst
    obtain ⟨g, hg, hclaims⟩ := ih hself hrest hf rfl
    apply Exists.intro g
    rcases hg with hg | hg
    · cases hg
      exact ⟨.inr List.mem_cons_self, hclaims⟩
    · exact ⟨.inr (List.mem_cons_of_mem e hg), hclaims⟩
  | @fail claimed e fs batch r target cause _ _ _ _ ih =>
    obtain ⟨-, hrest⟩ := List.pairwise_cons.1 hfs
    exact ih (fun g hg f hf => hlast g hg f (List.mem_cons_of_mem e hf)) hrest hf hclaimed

theorem exists_claiming_of_decideAll {R : Finding → Finding → Prop}
    (h : registry.decideAll tree none fs = .ok batch) (hfs : fs.Pairwise R)
    (hf : f ∈ batch.deferred) :
    ∃ g ∈ batch.applied.map Prod.fst, R g f ∧ f.span.start < g.span.stop := by
  have hdecides : registry.Decides tree (none.map fun g : Finding => g.span.stop) fs batch :=
    decides_of_decideAll h
  obtain ⟨g, hg, hclaims⟩ := hdecides.exists_claiming (by simp) hfs hf
  exact ⟨g, by simpa using hg, hclaims⟩

theorem pairwise_outerLe_mergeSort (fs : List Finding) :
    (fs.mergeSort fun f g => f.span.outerLe g.span).Pairwise fun f g =>
      f.span.outerLe g.span := by
  apply List.pairwise_mergeSort
  · intro f g e
    exact Span.outerLe_trans
  · intro f g
    exact Span.outerLe_total f.span g.span

/-- Findings that hold text, their spans nested or apart. -/
structure Laminar (fs : List Finding) : Prop where
  nonempty : ∀ f ∈ fs, f.span.start < f.span.stop
  nestOrPart : ∀ f ∈ fs, ∀ g ∈ fs, f.span.NestOrPart g.span

/-- Among nested or separate findings, one is deferred only inside one that is applied. -/
theorem Laminar.exists_around (h : Laminar fs) (happly : registry.applyAll tree fs = .ok outcome)
    (hf : f ∈ outcome.deferred) : ∃ g ∈ outcome.applied, g.span.contains f.span := by
  obtain ⟨batch, hbatch, -, happlied, hdeferred, -⟩ := applyAll_eq_ok.1 happly
  rw [hdeferred] at hf
  have hsorted : (fs.mergeSort fun f g => f.span.outerLe g.span).Pairwise
      fun g f => g.span.EndsOrContains f.span := by
    apply (pairwise_outerLe_mergeSort fs).imp_of_mem
    intro g f hg hf hgf
    have hg : g ∈ fs := List.mem_mergeSort.1 hg
    have hf : f ∈ fs := List.mem_mergeSort.1 hf
    exact (h.nestOrPart g hg f hf).endsOrContains hgf (h.nonempty f hf)
  obtain ⟨g, hg, haround, hstart⟩ := exists_claiming_of_decideAll hbatch hsorted hf
  exact ⟨g, happlied ▸ hg, haround.contains hstart⟩

theorem depthAt_deferred_le (h : Laminar fs) (happly : registry.applyAll tree fs = .ok outcome)
    (offset : UInt32) : depthAt outcome.deferred offset ≤ depthAt fs offset - 1 := by
  have hsum := depthAt_perm (perm_of_applyAll happly) offset
  rw [depthAt_append, depthAt_append] at hsum
  by_cases hnone : depthAt outcome.deferred offset = 0
  · omega
  · obtain ⟨f, hf, hcovers⟩ := depthAt_pos.1 (Nat.pos_of_ne_zero hnone)
    obtain ⟨g, hg, hcontains⟩ := h.exists_around happly hf
    have hpos : 0 < depthAt outcome.applied offset :=
      depthAt_pos.2 ⟨g, hg, Span.covers_of_contains hcontains hcovers⟩
    omega

theorem IsBuiltin.laminar_report (h : registry.IsBuiltin) (htree : tree.StrictlyNested) :
    Laminar (registry.report types.oracle tree) := by
  constructor
  · intro f hf
    obtain ⟨r, x, hx⟩ := h.exists_standsFor hf
    exact hx.span_nonempty htree
  · intro f hf g hg
    obtain ⟨r, x, hx⟩ := h.exists_standsFor hf
    obtain ⟨s, y, hy⟩ := h.exists_standsFor hg
    rw [Node.span_eq_of_finding? hx.finding, Node.span_eq_of_finding? hy.finding]
    exact htree.nestOrPart hx.mem hy.mem

namespace Progress

theorem laminar_pending (h : registry.Progress types start tree applied failed)
    (hregistry : registry.IsBuiltin) (hstart : start.StrictlyNested) :
    Laminar (registry.pending types.oracle tree failed) := by
  have hmem {f : Finding} (hf : f ∈ registry.pending types.oracle tree failed) :
      f ∈ registry.report types.oracle start :=
    ((h.mem_pending hregistry hstart).1 hf).1
  have hreport : Laminar (registry.report types.oracle start) := hregistry.laminar_report hstart
  constructor
  · intro f hf
    exact hreport.nonempty f (hmem hf)
  · intro f hf g hg
    exact hreport.nestOrPart f (hmem hf) g (hmem hg)

theorem depthAt_pending (h : registry.Progress types start tree applied failed)
    (hregistry : registry.IsBuiltin) (hstart : start.StrictlyNested)
    (hpass : registry.applyAll tree (registry.pending types.oracle tree failed) = .ok pass)
    (hnext : registry.Progress types start pass.tree (applied ++ pass.applied)
      (failed ++ pass.failed)) (offset : UInt32) :
    depthAt (registry.pending types.oracle pass.tree (failed ++ pass.failed)) offset =
      depthAt pass.deferred offset := by
  have hpending := depthAt_perm (perm_of_applyAll hpass) offset
  have hbefore := depthAt_perm (h.perm hregistry hstart) offset
  have hafter := depthAt_perm (hnext.perm hregistry hstart) offset
  simp only [List.map_append, depthAt_append] at hpending hbefore hafter
  omega

theorem depthAt_pending_le (h : registry.Progress types start tree applied failed)
    (hregistry : registry.IsBuiltin) (hstart : start.StrictlyNested)
    (hpass : registry.applyAll tree (registry.pending types.oracle tree failed) = .ok pass)
    (hnext : registry.Progress types start pass.tree (applied ++ pass.applied)
      (failed ++ pass.failed))
    (hdepth : ∀ offset, depthAt (registry.pending types.oracle tree failed) offset ≤ passes + 1)
    (offset : UInt32) :
    depthAt (registry.pending types.oracle pass.tree (failed ++ pass.failed)) offset ≤ passes := by
  have hless := depthAt_deferred_le (h.laminar_pending hregistry hstart) hpass offset
  have hmost := hdepth offset
  rw [h.depthAt_pending hregistry hstart hpass hnext offset]
  omega

/-- As many passes as there are findings around any one offset leave none. -/
theorem exists_fixPasses_of_depth (h : registry.Progress types start tree applied failed)
    (hregistry : registry.IsBuiltin) (hstart : start.StrictlyNested)
    (hdepth : ∀ offset, depthAt (registry.pending types.oracle tree failed) offset ≤ passes) :
    ∃ outcome, registry.fixPasses types.oracle passes tree applied failed = .ok outcome ∧
      registry.Progress types start outcome.tree outcome.applied outcome.failed ∧
      outcome.deferred = [] ∧
      registry.pending types.oracle outcome.tree outcome.failed = [] := by
  -- A pass takes a finding away around every offset, so no more are left there than passes.
  obtain ⟨outcome, left, hfix, ⟨hprogress, hleft⟩, hdeferred, hend⟩ :=
    Registry.exists_fixPasses
      (fun passes tree applied failed => registry.Progress types start tree applied failed ∧
        ∀ offset, depthAt (registry.pending types.oracle tree failed) offset ≤ passes)
      (fun passes tree applied failed ⟨h, hdepth⟩ => by
        obtain ⟨pass, hpass, hnext⟩ := h.step hregistry hstart
        exact ⟨pass, hpass, hnext, h.depthAt_pending_le hregistry hstart hpass hnext hdepth⟩)
      ⟨h, hdepth⟩
  have hnone : outcome.deferred = [] := by
    rcases hend with rfl | hnone
    · rw [hdeferred]
      exact eq_nil_of_depthAt_eq_zero (hprogress.laminar_pending hregistry hstart).nonempty
        fun offset => Nat.le_zero.1 (hleft offset)
    · exact hnone
  exact ⟨outcome, hfix, hprogress, hnone, hdeferred.symm.trans hnone⟩

theorem report_perm_failed (h : registry.Progress types start tree applied failed)
    (hregistry : registry.IsBuiltin) (hstart : start.StrictlyNested)
    (hnone : registry.pending types.oracle tree failed = []) :
    (registry.report types.oracle tree).Perm (failed.map Prod.fst) := by
  obtain ⟨-, -, hdisjoint⟩ := List.nodup_append'.1 h.nodup
  have happlied : applied.filter (fun f => decide (f ∉ applied)) = [] := by
    rw [List.filter_eq_nil_iff]
    intro f hf
    simpa using hf
  have hfailed : (failed.map Prod.fst).filter (fun f => decide (f ∉ applied)) =
      failed.map Prod.fst := by
    rw [List.filter_eq_self]
    intro f hf
    exact decide_eq_true fun ha => hdisjoint ha hf
  have hperm := (h.perm hregistry hstart).symm.filter fun f => decide (f ∉ applied)
  rw [hnone, List.append_nil, List.filter_append, happlied, hfailed, List.nil_append,
    ← hregistry.report_fixing hstart h.fixable, ← h.tree_eq] at hperm
  exact hperm

end Progress

/-- Fixing leaves nothing that it could fix, unless more than 16 findings lie around one offset. -/
theorem fixAll_converges (h : registry.IsBuiltin) (htree : tree.StrictlyNested) (types : TypeTable)
    (hdepth : ∀ offset, depthAt (registry.report types.oracle tree) offset ≤ 16) :
    ∃ outcome, registry.fixAll types.oracle tree = .ok outcome ∧ outcome.deferred = [] ∧
      (registry.report types.oracle outcome.tree).Perm (outcome.failed.map Prod.fst) := by
  have hinitial := Progress.initial registry types tree
  have hpending : registry.pending types.oracle tree [] = registry.report types.oracle tree :=
    List.filter_eq_self.2 fun _ _ => rfl
  rw [← hpending] at hdepth
  obtain ⟨outcome, hfix, hprogress, hdeferred, hnone⟩ :=
    hinitial.exists_fixPasses_of_depth h htree hdepth
  exact ⟨outcome, hfix, hdeferred, hprogress.report_perm_failed h htree hnone⟩

theorem fixAll_converges_tryGet :
    ∃ outcome, builtin.fixAll TypeTable.tryGet.oracle Node.tryGet = .ok outcome ∧
      outcome.deferred = [] ∧
      (builtin.report TypeTable.tryGet.oracle outcome.tree).Perm
        (outcome.failed.map Prod.fst) := by
  apply fixAll_converges isBuiltin_builtin (by decide +kernel)
  intro offset
  have hlength : (builtin.report TypeTable.tryGet.oracle Node.tryGet).length = 2 := by
    decide +kernel
  have hdepth : depthAt (builtin.report TypeTable.tryGet.oracle Node.tryGet) offset ≤ 2 :=
    hlength ▸ List.countP_le_length
  exact hdepth.trans (by decide)

end Registry

end TreeLint
