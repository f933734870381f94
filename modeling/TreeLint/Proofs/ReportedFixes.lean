import TreeLint.Proofs.FindingsWithText
import TreeLint.Proofs.SearchStops

namespace TreeLint

theorem exists_of_mapM_eq_error {ε α β : Type} {f : α → Except ε β} {xs : List α} {e : ε}
    (h : xs.mapM f = .error e) : ∃ x ∈ xs, f x = .error e := by
  induction xs with
  | nil => cases h
  | cons x xs ih =>
    rw [List.mapM_cons, bind_eq_error] at h
    rcases h with hx | ⟨y, -, h⟩
    · exact ⟨x, List.mem_cons_self, hx⟩
    · rcases bind_eq_error.1 h with hxs | ⟨ys, -, h⟩
      · obtain ⟨z, hz, hf⟩ := ih hxs
        exact ⟨z, List.mem_cons_of_mem x hz, hf⟩
      · cases h

namespace TryMethod

variable {span : Span} {condition thenBranch n : Node} {elseBranch value : Option Node}
  {e : RuleError}

theorem assignment_eq_error (h : assignment span value = .error e) :
    value = none ∧ e = unsupported span "return without a value" := by
  cases value with
  | none =>
    cases h
    exact ⟨rfl, rfl⟩
  | some value => cases h

/-- The return that is replaced in an `if` is found in it, so that it is refused only when it is
bare. -/
theorem fixIf_eq_error (hn : (⟨span, .ifStmt condition thenBranch elseBranch⟩ : Node).Contained)
    (h : fixIf ⟨span, .ifStmt condition thenBranch elseBranch⟩ thenBranch = .error e) :
    ∃ target, finalReturn? thenBranch = some (target, none) ∧
      e = unsupported target.span "return without a value" := by
  rw [fixIf.eq_def] at h
  split at h
  · rename_i target value hfinal
    rcases bind_eq_error.1 h with h | ⟨new, hnew, h⟩
    · obtain ⟨rfl, he⟩ := assignment_eq_error h
      exact ⟨target, hfinal, he⟩
    · obtain ⟨context, hlast⟩ := exists_lastReturn hfinal
      obtain ⟨p, hp, -⟩ := hlast.exists_place span condition elseBranch
      have hcategory : target.category = new.category := by
        rw [category_assignment hnew, Node.category, Node.kind, finalReturn?_eq_some hfinal]
        rfl
      obtain ⟨result, -, hresult, -⟩ :=
        hn.exists_substitute (Node.mem_preorder_of_subtree? hp) hcategory
      rw [hresult] at h
      cases h
  · cases h

theorem fixStatement_eq_error (hn : n.Contained) (h : fixStatement n = .error e) :
    ∃ place, e = unsupported place "return without a value" := by
  obtain ⟨span, shape⟩ := n
  cases shape with
  | returnStmt value => exact ⟨span, (assignment_eq_error h).2⟩
  | ifStmt condition thenBranch elseBranch =>
    obtain ⟨target, -, he⟩ := fixIf_eq_error hn h
    exact ⟨target.span, he⟩
  | _ => cases h

theorem fixBody_eq_error {statements : List Node} (hstatements : ∀ s ∈ statements, s.Contained)
    (h : fixBody span statements = .error e) :
    ∃ place, e = unsupported place "return without a value" := by
  rcases bind_eq_error.1 h with h | ⟨fixed, -, h⟩
  · obtain ⟨s, hs, h⟩ := exists_of_mapM_eq_error h
    exact fixStatement_eq_error (hstatements s hs) h
  · cases h

theorem synthesize_eq_error (hn : n.Contained) (hkind : n.kind = .methodDecl)
    (h : synthesize n = .error e) : ∃ place reason, e = unsupported place reason := by
  obtain ⟨span, shape⟩ := n
  cases shape with
  | methodDecl modifiers returnType name parameters body =>
    dsimp only [synthesize] at h
    split at h
    · rename_i statements type hbody _
      have hstatements : ∀ s ∈ statements, s.Contained :=
        fun s hs => contained_of_mem_body hn hbody hs
      rcases bind_eq_error.1 h with h | ⟨newBody, -, h⟩
      · obtain ⟨place, hplace⟩ := fixBody_eq_error hstatements h
        exact ⟨place, _, hplace⟩
      · cases h
    · cases h
      exact ⟨span, _, rfl⟩
    · cases h
      exact ⟨span, _, rfl⟩
  | _ => cases hkind

end TryMethod

namespace ValueEquality

variable {n : Node} {e : RuleError}

theorem synthesize_eq_error (hkind : n.kind = .binary) (h : synthesize n = .error e) :
    ∃ reason, e = .unsupportedShape ruleId n.span reason := by
  obtain ⟨span, shape⟩ := n
  cases shape with
  | binary op left right =>
    dsimp only [synthesize] at h
    split at h
    · cases h
    · cases h
      exact ⟨_, rfl⟩
  | _ => cases hkind

theorem exists_synthesize {oracle : TypeOracle} (h : check oracle n ≠ none) :
    ∃ new, synthesize n = .ok new := by
  obtain ⟨span, shape⟩ := n
  cases shape with
  | binary op left right =>
    dsimp only [check] at h
    split at h
    · rename_i hop
      rcases hop.1 with rfl | rfl
      · exact ⟨_, rfl⟩
      · exact ⟨_, rfl⟩
    · exact absurd rfl h
  | _ => exact absurd rfl h

end ValueEquality

namespace Registry

variable {registry : Registry} {oracle : TypeOracle} {tree target new : Node} {f : Finding}
  {r : Rule} {e : RuleError} {p : Path}

theorem synthesize_eq_error (hr : r ∈ builtin.rules) (hkind : target.kind = r.targetKind)
    (htarget : target.Contained) (h : r.synthesize target = .error e) :
    ∃ span reason, e = .unsupportedShape r.id span reason := by
  rcases mem_builtin.1 hr with rfl | rfl
  · obtain ⟨reason, he⟩ := ValueEquality.synthesize_eq_error hkind h
    exact ⟨target.span, reason, he⟩
  · exact TryMethod.synthesize_eq_error htarget hkind h

theorem Resolves.exists_stop (h : registry.Resolves tree f r target) :
    ∃ p, tree.stop? f.span r.targetKind = some p ∧ tree.subtree? p = some target := by
  have hfound := h.node
  rw [Node.findSpan?_eq_bind_stop?] at hfound
  exact Option.bind_eq_some_iff.1 hfound

theorem Resolves.exists_applyFix (h : registry.Resolves tree f r target) (hr : r ∈ builtin.rules)
    (hp : tree.stop? f.span r.targetKind = some p) (hnew : r.synthesize target = .ok new) :
    ∃ fixed, registry.applyFix tree f = .ok fixed ∧ Node.ReplacedAt tree p new fixed := by
  obtain ⟨q, fixed, hq, hfixed, hreplaced⟩ := Node.exists_substitute_of_findSpan? h.node
    (span_and_category_of_synthesize hr hnew).2.symm
  obtain rfl : p = q := Option.some.inj (hp.symm.trans hq)
  exact ⟨fixed, applyFix_eq_ok.2 ⟨r, target, new, h, hnew, hfixed⟩, hreplaced⟩

theorem Resolves.applyFix_eq_error (h : registry.Resolves tree f r target)
    (hnew : r.synthesize target = .error e) : registry.applyFix tree f = .error (.rule e) := by
  rw [h.applyFix, hnew]
  rfl

theorem IsBuiltin.synthesize_eq_error (h : registry.IsBuiltin) (htree : tree.Contained)
    (hresolves : registry.Resolves tree f r target) (hnew : r.synthesize target = .error e) :
    ∃ span reason, e = .unsupportedShape f.ruleId span reason := by
  obtain ⟨hr, hid⟩ := find?_eq_some hresolves.rule
  obtain ⟨hmem, -, hkind⟩ := Node.of_findSpan?_eq_some hresolves.node
  rw [← hid]
  exact Registry.synthesize_eq_error (h.subset r hr) hkind (htree.below hmem) hnew

/-- In a tree in which no two comparisons share a span, a reported comparison is the one located. -/
theorem IsBuiltin.exists_synthesize (h : registry.IsBuiltin)
    (hspans : ((tree.preorder.filter fun m => m.kind == .binary).map Node.span).Nodup)
    (hf : f ∈ registry.report oracle tree) (hid : f.ruleId = ValueEquality.ruleId)
    (hresolves : registry.Resolves tree f r target) : ∃ new, r.synthesize target = .ok new := by
  obtain ⟨s, hs, x, hx, hreported⟩ := mem_report.1 hf
  have hspan := Node.span_eq_of_finding? (Rule.finding?_of_reported? (h.subset s hs) hreported)
  rw [Rule.reported?] at hreported
  split at hreported
  · rename_i hkind
    obtain ⟨place, hcheck, rfl⟩ := Option.map_eq_some_iff.1 hreported
    obtain rfl : s = ValueEquality.rule :=
      eq_of_id_eq (h.subset s hs) (mem_builtin.2 (.inl rfl)) hid
    obtain rfl : r = ValueEquality.rule :=
      Option.some.inj (hresolves.rule.symm.trans (h.find?_id hs))
    obtain ⟨hmem, htarget, htargetKind⟩ := Node.of_findSpan?_eq_some hresolves.node
    -- The located node has the span of the finding, and no other comparison has it.
    have hsame : target = x := by
      refine List.inj_on_of_nodup_map hspans ?_ ?_ (htarget.trans hspan)
      · exact List.mem_filter.2 ⟨hmem, beq_iff_eq.2 htargetKind⟩
      · exact List.mem_filter.2 ⟨hx, hkind⟩
    have hpattern : ValueEquality.check oracle target ≠ none := by
      rw [hsame]
      exact fun hnone => Option.some_ne_none place (hcheck.symm.trans hnone)
    exact ValueEquality.exists_synthesize hpattern
  · cases hreported

/-- A reported finding is located, and what its rule builds for the located node stands where the
search stopped, with all else as before; or the rule has no fix for a node of that shape. Where no
two comparisons share a span, a reported comparison is always fixed. -/
theorem applyFix_reported (h : registry.IsBuiltin) (htree : tree.Contained) (oracle : TypeOracle)
    (hf : f ∈ registry.report oracle tree) :
    ∃ r target p, registry.find? f.ruleId = some r ∧
      tree.findSpan? f.span r.targetKind = some target ∧
      tree.stop? f.span r.targetKind = some p ∧ tree.subtree? p = some target ∧
      ((∃ new fixed, r.synthesize target = .ok new ∧ registry.applyFix tree f = .ok fixed ∧
          Node.ReplacedAt tree p new fixed) ∨
        ∃ span reason, r.synthesize target = .error (.unsupportedShape f.ruleId span reason) ∧
          registry.applyFix tree f = .error (.rule (.unsupportedShape f.ruleId span reason))) ∧
      (((tree.preorder.filter fun m => m.kind == .binary).map Node.span).Nodup →
        f.ruleId = ValueEquality.ruleId →
        ∃ new fixed, r.synthesize target = .ok new ∧ registry.applyFix tree f = .ok fixed ∧
          Node.ReplacedAt tree p new fixed) := by
  obtain ⟨r, target, hresolves⟩ := h.exists_resolves htree hf
  obtain ⟨p, hp, htarget⟩ := hresolves.exists_stop
  have hr : r ∈ builtin.rules := h.subset r (find?_eq_some hresolves.rule).1
  have hput (new : Node) (hnew : r.synthesize target = .ok new) :
      ∃ new fixed, r.synthesize target = .ok new ∧ registry.applyFix tree f = .ok fixed ∧
        Node.ReplacedAt tree p new fixed := by
    obtain ⟨fixed, hfixed, hreplaced⟩ := hresolves.exists_applyFix hr hp hnew
    exact ⟨new, fixed, hnew, hfixed, hreplaced⟩
  refine ⟨r, target, p, hresolves.rule, hresolves.node, hp, htarget, ?_, ?_⟩
  · cases hnew : r.synthesize target with
    | ok new =>
      rw [hnew] at hput
      exact .inl (hput new rfl)
    | error e =>
      obtain ⟨span, reason, rfl⟩ := h.synthesize_eq_error htree hresolves hnew
      exact .inr ⟨span, reason, rfl, hresolves.applyFix_eq_error hnew⟩
  · intro hspans hid
    obtain ⟨new, hnew⟩ := h.exists_synthesize hspans hf hid hresolves
    exact hput new hnew

theorem applyFix_reported_tryGet :
    let comparison := ValueEquality.rule.findingAt ⟨22, 28⟩
    let new : Node := ⟨⟨22, 28⟩, .isPattern ⟨⟨22, 23⟩, .identifier "a"⟩
      ⟨⟨27, 28⟩, .constantPattern ⟨⟨27, 28⟩, .identifier "b"⟩⟩⟩
    comparison ∈ builtin.report TypeTable.tryGet.oracle Node.tryGet ∧
      ∃ fixed, builtin.applyFix Node.tryGet comparison = .ok fixed ∧
        Node.ReplacedAt Node.tryGet [1, 0, 0] new fixed := by
  intro comparison new
  have hreported : comparison ∈ builtin.report TypeTable.tryGet.oracle Node.tryGet := by
    decide +kernel
  have htree : Node.tryGet.Contained := by decide +kernel
  obtain ⟨r, target, p, hr, htarget, hp, -, -, hcomparison⟩ :=
    applyFix_reported isBuiltin_builtin htree TypeTable.tryGet.oracle hreported
  cases hr
  have hlocated : Node.tryGet.findSpan? ⟨22, 28⟩ .binary =
      some ⟨⟨22, 28⟩, .binary .equals ⟨⟨22, 23⟩, .identifier "a"⟩ ⟨⟨27, 28⟩, .identifier "b"⟩⟩ := by
    decide +kernel
  have hstop : Node.tryGet.stop? ⟨22, 28⟩ .binary = some [1, 0, 0] := by
    decide +kernel
  obtain rfl := Option.some.inj (htarget.symm.trans hlocated)
  obtain rfl := Option.some.inj (hp.symm.trans hstop)
  obtain ⟨built, fixed, hnew, hfixed, hreplaced⟩ := hcomparison (by decide +kernel) rfl
  cases hnew
  exact ⟨hreported, fixed, hfixed, hreplaced⟩

end Registry

end TreeLint
