import TreeLint.Proofs.FindingsWithText

namespace TreeLint

namespace Node

variable {root d m new t : Node} {r : Replacement} {rs : List Replacement} {p : Path} {span : Span}
  {kind : Kind} {e : SubstitutionError}

/-- A span that the replaced node does not contain is still found. -/
theorem exists_findSpan?_replacing_put (hroot : root.Contained) (hm : root.subtree? p = some m)
    (hspan : new.span = m.span) (hout : ¬ m.span.contains span)
    (hd : root.findSpan? span kind = some d) :
    ∃ d', (root.replacing (Edits.put (fun _ => none) p new)).findSpan? span kind = some d' := by
  have hclear : Clear span (Edits.put (fun _ => none) p new) root := by
    constructor
    · apply Edits.put_of_ne
      rintro rfl
      cases hm
      obtain ⟨hmem, hdspan, -⟩ := of_findSpan?_eq_some hd
      exact hout (hdspan ▸ hroot.within hmem)
    · intro q new' m' hnew hm'
      obtain ⟨rfl, rfl⟩ := Edits.eq_of_put_eq_some hnew
      cases hm.symm.trans hm'
      exact ⟨hspan, hout⟩
  obtain ⟨q, hq⟩ := exists_located hd
  obtain ⟨d', hd'⟩ := hq.replacing hclear
  exact ⟨d', hd'.findSpan?_eq⟩

/-- Where a node is found for it, a replacement is put in, and all spans outside of its own are
still found. -/
theorem SpansNest.exists_applyReplacement (hroot : root.SpansNest) (hr : r.Fits)
    (hcategory : r.node.category = r.kind.category) (hm : root.findSpan? r.span r.kind = some m) :
    ∃ t, root.applyReplacement r = .ok t ∧ ∀ span kind d, ¬ r.span.contains span →
      root.findSpan? span kind = some d → ∃ d', t.findSpan? span kind = some d' := by
  obtain ⟨p, hp⟩ := exists_located hm
  have hspan : m.span = r.span := hp.span_and_kind.1
  refine ⟨_, hp.applyReplacement hcategory (replace?_eq_replacing hp.subtree?_eq r.node), ?_⟩
  intro span kind d hout hd
  rw [← hspan] at hout
  exact exists_findSpan?_replacing_put hroot.contained hp.subtree?_eq (hr.span_eq.trans hspan.symm)
    hout hd

theorem SpansNest.foldlM_applyReplacement_eq_error (hroot : root.SpansNest)
    (hrs : ∀ r ∈ rs, r.Fits ∧ r.node.category = r.kind.category)
    (hbehind : rs.Pairwise fun r s => r.span.stop ≤ s.span.start)
    (hfound : ∀ r ∈ rs, r.span.start < r.span.stop → ∃ m, root.findSpan? r.span r.kind = some m)
    (h : rs.foldlM Node.applyReplacement root = .error e) :
    ∃ r ∈ rs, e = .notFound r.kind r.span ∧ r.span.isEmpty := by
  induction rs generalizing root with
  | nil => cases h
  | cons r rs ih =>
    obtain ⟨⟨hfits, hcategory⟩, hrest⟩ := List.forall_mem_cons.1 hrs
    obtain ⟨hfirst, hbehind⟩ := List.pairwise_cons.1 hbehind
    rw [List.foldlM_cons] at h
    cases hm : root.findSpan? r.span r.kind with
    | none =>
      rw [applyReplacement_of_findSpan?_eq_none hm] at h
      cases h
      refine ⟨r, List.mem_cons_self, rfl, ?_⟩
      by_contra hempty
      obtain ⟨m, hm'⟩ := hfound r List.mem_cons_self
        ((Span.start_lt_stop_iff hfits.ordered).2 hempty)
      rw [hm] at hm'
      cases hm'
    | some m =>
      obtain ⟨t, ht, hkeeps⟩ := hroot.exists_applyReplacement hfits hcategory hm
      rw [ht] at h
      have hfound' (s : Replacement) (hs : s ∈ rs) (htext : s.span.start < s.span.stop) :
          ∃ d, t.findSpan? s.span s.kind = some d := by
        obtain ⟨d, hd⟩ := hfound s (List.mem_cons_of_mem r hs) htext
        apply hkeeps s.span s.kind d _ hd
        intro hcontains
        have hstop := (Span.contains_iff.1 hcontains).2
        exact UInt32.not_lt.2 (UInt32.le_trans hstop (hfirst s hs)) htext
      obtain ⟨s, hs, hfailed⟩ := ih (hroot.applyReplacement hfits ht) hrest hbehind hfound' h
      exact ⟨s, List.mem_cons_of_mem r hs, hfailed⟩

end Node

namespace Registry

variable {registry : Registry} {oracle : TypeOracle} {tree : Node} {fs : List Finding}
  {e : FixError}

/-- A batch whose findings resolve fails only at an empty span. -/
theorem IsBuiltin.applyAll_fails (h : registry.IsBuiltin) (htree : tree.SpansNest)
    (hfs : ∀ f ∈ fs, ∃ r x, registry.Resolves tree f r x)
    (he : registry.applyAll tree fs = .error e) :
    ∃ kind span, e = .substitution (.notFound kind span) ∧ span.isEmpty := by
  obtain ⟨batch, hbatch⟩ := exists_decides fun f hf => hfs f (List.mem_mergeSort.1 hf)
  have hdecides := decides_of_decideAll hbatch
  obtain ⟨cause, hcause, rfl⟩ := (applyAll_eq_error hbatch).1 he
  have hfits (new : Replacement) (hnew : new ∈ batch.applied.map Prod.snd) :
      new.Fits ∧ new.node.category = new.kind.category :=
    (hdecides.of_mem_replacements h htree hnew).imp_right And.left
  have hfound (new : Replacement) (hnew : new ∈ batch.applied.map Prod.snd) :
      ∃ m, tree.findSpan? new.span new.kind = some m :=
    (hdecides.of_mem_replacements h htree hnew).2.2
  have hbehind := hdecides.pairwise_replacements h htree
  rw [Node.applyReplacements_eq_foldlM (fun r hr => (hfits r hr).1.ordered) hbehind] at hcause
  obtain ⟨r, -, rfl, hempty⟩ :=
    htree.foldlM_applyReplacement_eq_error hfits hbehind (fun r hr _ => hfound r hr) hcause
  exact ⟨r.kind, r.span, rfl, hempty⟩

theorem IsBuiltin.fixPasses_fails (h : registry.IsBuiltin) (htree : tree.SpansNest) {passes : Nat}
    {applied : List Finding} {failed : List (Finding × RuleError)}
    (he : registry.fixPasses oracle passes tree applied failed = .error e) :
    ∃ kind span, e = .substitution (.notFound kind span) ∧ span.isEmpty := by
  induction passes generalizing tree applied failed with
  | zero => cases he
  | succ passes ih =>
    rw [fixPasses.eq_def] at he
    dsimp only at he
    split at he
    · cases he
    · rcases bind_eq_error.1 he with he | ⟨pass, hpass, he⟩
      · apply h.applyAll_fails htree _ he
        intro f hf
        exact h.exists_resolves htree.contained (List.mem_of_mem_filter hf)
      · exact ih (h.spansNest_applyAll htree hpass) he

end Registry

end TreeLint
