import TreeLint.Proofs.Findings
import TreeLint.Proofs.Persistence

namespace TreeLint

/-- Both operands of the comparison in `TryGet` are of value types. -/
def TypeTable.tryGet : TypeTable :=
  .ofEntries [⟨⟨22, 23⟩, .known true⟩, ⟨⟨27, 28⟩, .known true⟩]

namespace Rule

variable {r : Rule} {oracle : TypeOracle} {types : TypeTable} {m n : Node} {f : Finding}
  {fs : List Finding}

/-- What a rule reports at a node. -/
def reported? (r : Rule) (oracle : TypeOracle) (n : Node) : Option Finding :=
  if n.kind == r.targetKind then (r.check oracle n).map r.findingAt else none

theorem scan_eq (r : Rule) (oracle : TypeOracle) (root : Node) :
    r.scan oracle root = root.preorder.filterMap (r.reported? oracle) := by
  rw [scan, Walk.toList_ofNode, List.filterMap_filter]
  rfl

theorem ruleId_of_mem_scan (h : f ∈ r.scan oracle n) : f.ruleId = r.id := by
  obtain ⟨m, -, hf⟩ := List.mem_filterMap.1 h
  obtain ⟨span, -, rfl⟩ := Option.map_eq_some_iff.1 hf
  rfl

theorem finding?_of_reported? (hr : r ∈ Registry.builtin.rules)
    (h : r.reported? oracle n = some f) : n.finding? = some f := by
  rw [reported?] at h
  split at h
  · rename_i hkind
    obtain ⟨span, hspan, rfl⟩ := Option.map_eq_some_iff.1 h
    refine Node.finding?_eq_some.2 ⟨r, hr, (beq_iff_eq.1 hkind).symm, congrArg r.findingAt ?_⟩
    rcases Registry.mem_builtin.1 hr with rfl | rfl
    · change ValueEquality.check oracle n = _ at hspan
      rw [ValueEquality.check.eq_def] at hspan
      split at hspan
      · split at hspan
        · exact Option.some.inj hspan
        · cases hspan
      · cases hspan
    · change TryMethod.check oracle n = _ at hspan
      rw [TryMethod.check.eq_def] at hspan
      split at hspan
      · split at hspan
        · exact Option.some.inj hspan
        · cases hspan
      · cases hspan
  · cases h

theorem reported?_eq_none (hr : r ∈ Registry.builtin.rules) (h : ¬ n.isSite) :
    r.reported? oracle n = none := by
  cases hf : r.reported? oracle n with
  | none => rfl
  | some f => exact absurd (Node.isSite_of_finding? (finding?_of_reported? hr hf)) h

theorem returnsBool_pass {g : Node → Node} (hg : IsPass g) (n : Node) :
    TryMethod.returnsBool (g n) = TryMethod.returnsBool n := by
  have hnot (m : Node) (hm : m.kind ≠ .typeRef) : TryMethod.returnsBool m = false := by
    obtain ⟨span, shape⟩ := m
    cases shape with
    | typeRef => exact absurd rfl hm
    | _ => rfl
  by_cases hn : n.kind = .typeRef
  · obtain ⟨span, shape⟩ := n
    cases shape with
    | typeRef type =>
      rw [hg.mk_eq rfl]
      rfl
    | _ => cases hn
  · rw [hnot n hn, hnot]
    rwa [ne_eq, hg.kind_eq_iff (by decide) (by decide)]

/-- Type facts are looked up by span, so what changes inside a node, its children seen alike,
changes no report on it. -/
theorem check_mapIdx {g : Nat → Node → Node} (hr : r ∈ Registry.builtin.rules)
    (hg : ∀ i c, n.children[i]? = some c → Node.SeenAlike c (g i c)) (types : TypeTable) :
    r.check types.oracle ⟨n.span, n.shape.mapIdx g⟩ = r.check types.oracle n := by
  obtain ⟨span, shape⟩ := n
  rcases Registry.mem_builtin.1 hr with rfl | rfl
  · change ValueEquality.check types.oracle _ = ValueEquality.check types.oracle _
    cases shape with
    | binary op left right =>
      have hleft : types.oracle (g 0 left) = types.oracle left :=
        congrArg types.factAt (hg 0 left rfl).span
      have hright : types.oracle (g 1 right) = types.oracle right :=
        congrArg types.factAt (hg 1 right rfl).span
      dsimp only [ValueEquality.check, Shape.mapIdx]
      rw [hleft, hright]
    | _ => rfl
  · change TryMethod.check types.oracle _ = TryMethod.check types.oracle _
    cases shape with
    | methodDecl modifiers returnType name parameters body =>
      dsimp only [TryMethod.check, Shape.mapIdx]
      rw [(hg 0 returnType rfl).returnsBool]
    | _ => rfl

theorem reported?_mapIdx {g : Nat → Node → Node} (hr : r ∈ Registry.builtin.rules)
    (hg : ∀ i c, n.children[i]? = some c → Node.SeenAlike c (g i c)) (types : TypeTable) :
    r.reported? types.oracle ⟨n.span, n.shape.mapIdx g⟩ = r.reported? types.oracle n := by
  have hkind : (⟨n.span, n.shape.mapIdx g⟩ : Node).kind = n.kind := Shape.kind_mapIdx g n.shape
  rw [reported?, reported?, hkind, check_mapIdx hr hg]

theorem reported?_mapChildren {g : Node → Node} (hr : r ∈ Registry.builtin.rules)
    (hg : IsPass g) (types : TypeTable) (n : Node) :
    r.reported? types.oracle (n.mapChildren g) = r.reported? types.oracle n :=
  reported?_mapIdx hr (fun _ c _ => ⟨hg.span c, returnsBool_pass hg c⟩) types

theorem reported?_of_fixed? (hr : r ∈ Registry.builtin.rules) (h : n.fixed? = some m) :
    r.reported? oracle m = none := by
  obtain ⟨s, hs, -, hm⟩ := Node.fixed?_eq_some.1 h
  rcases Registry.mem_builtin.1 hs with rfl | rfl
  · cases ValueEquality.becomes_of_synthesize hm with
    | pattern => exact reported?_eq_none hr Bool.false_ne_true
  · cases TryMethod.becomes_of_synthesize hm with
    | method =>
      rcases Registry.mem_builtin.1 hr with rfl | rfl
      · rfl
      · simp [reported?, TryMethod.rule, TryMethod.check, TryMethod.returnsBool]

theorem reported?_fixing (hr : r ∈ Registry.builtin.rules) (hn : n.StrictlyNested)
    (hfix : n.Chosen fs → n.fixed? ≠ none) : r.reported? types.oracle (n.fixing fs) =
      (r.reported? types.oracle n).bind (Option.guard fun f => decide (f ∉ fs)) := by
  by_cases hc : n.Chosen fs
  · obtain ⟨m, hm⟩ := Option.ne_none_iff_exists'.1 (hfix hc)
    rw [Node.fixing_of_fixed? hn hc hm, reported?_mapChildren hr (Node.isPass_fixing fs),
      reported?_of_fixed? hr hm]
    cases hf : r.reported? types.oracle n with
    | none => rfl
    | some f =>
      obtain ⟨g, hg, hng⟩ := hc
      cases (finding?_of_reported? hr hf).symm.trans hng
      simp [Option.guard, hg]
  · rw [Node.fixing_of_not_chosen hc, reported?_mapChildren hr (Node.isPass_fixing fs)]
    cases hf : r.reported? types.oracle n with
    | none => rfl
    | some f =>
      have hleft : f ∉ fs := fun h => hc ⟨f, h, finding?_of_reported? hr hf⟩
      simp [Option.guard, hleft]

theorem scan_fixing (hr : r ∈ Registry.builtin.rules) (hn : n.StrictlyNested)
    (hfix : n.Fixable fs) :
    r.scan types.oracle (n.fixing fs) =
      (r.scan types.oracle n).filter fun f => decide (f ∉ fs) := by
  rw [scan_eq, scan_eq, ← List.filterMap_eq_filter]
  exact Node.filterMap_preorder_fixing hn (fun m hm => reported?_eq_none hr hm)
    fun m hm => reported?_fixing hr (hn.below hm) (hfix m hm)

end Rule

namespace Registry

variable {registry : Registry} {oracle : TypeOracle} {types : TypeTable} {n : Node} {f : Finding}
  {fs : List Finding}

/-- A report after fixing is the report before it without the findings that are fixed. -/
theorem IsBuiltin.report_fixing (h : registry.IsBuiltin) (hn : n.StrictlyNested)
    (hfix : n.Fixable fs) :
    registry.report types.oracle (n.fixing fs) =
      (registry.report types.oracle n).filter fun f => decide (f ∉ fs) := by
  rw [report, report, List.filter_flatMap]
  exact List.flatMap_congr fun r hr => Rule.scan_fixing (h.subset r hr) hn hfix

/-- The finding names a rule of the registry and stands for a node of the tree that the rule looks
at. -/
structure StandsFor (registry : Registry) (n : Node) (f : Finding) (r : Rule) (x : Node) : Prop where
  rule : registry.find? f.ruleId = some r
  mem : x ∈ n.preorder
  looks : x.kind.rule? = some r
  finding : x.finding? = some f

theorem mem_report : f ∈ registry.report oracle n ↔
    ∃ r ∈ registry.rules, ∃ x ∈ n.preorder, r.reported? oracle x = some f := by
  simp only [report, Rule.scan_eq, List.mem_flatMap, List.mem_filterMap]

theorem IsBuiltin.exists_standsFor (h : registry.IsBuiltin)
    (hf : f ∈ registry.report oracle n) : ∃ r x, registry.StandsFor n f r x := by
  obtain ⟨r, hr, x, hx, hf⟩ := mem_report.1 hf
  have hfinding := Rule.finding?_of_reported? (h.subset r hr) hf
  rw [Rule.reported?] at hf
  split at hf
  · rename_i hkind
    obtain ⟨span, -, rfl⟩ := Option.map_eq_some_iff.1 hf
    exact ⟨r, x, h.find?_id hr, hx,
      Kind.rule?_eq_some.2 ⟨h.subset r hr, (beq_iff_eq.1 hkind).symm⟩, hfinding⟩
  · cases hf

theorem IsBuiltin.nodup_report (h : registry.IsBuiltin) (hn : n.StrictlyNested) :
    (registry.report oracle n).Nodup := by
  refine List.nodup_flatMap.2 ⟨fun r hr => ?_, ?_⟩
  · rw [Rule.scan_eq]
    exact hn.nodup_filterMap fun m f hf => Rule.finding?_of_reported? (h.subset r hr) hf
  · apply (List.pairwise_map.1 h.nodup).imp
    intro r s hne f hr hs
    apply hne
    exact (Rule.ruleId_of_mem_scan hr).symm.trans (Rule.ruleId_of_mem_scan hs)

example : builtin.report TypeTable.tryGet.oracle Node.tryGet =
    [ValueEquality.rule.findingAt ⟨22, 28⟩, TryMethod.rule.findingAt ⟨0, 30⟩] := by
  decide +kernel

end Registry

end TreeLint
