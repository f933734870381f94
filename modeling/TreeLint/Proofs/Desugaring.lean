import TreeLint.Proofs.FindingsWithText

namespace TreeLint

namespace Node

variable {m n new : Node} {edits : Edits}

/-- A test against a constant, or against a negated one, is made a comparison. -/
def asComparison (span : Span) : Shape Node → Node
  | .isPattern left ⟨_, .constantPattern right⟩ => ⟨span, .binary .equals left right⟩
  | .isPattern left ⟨_, .notPattern ⟨_, .constantPattern right⟩⟩ =>
    ⟨span, .binary .notEquals left right⟩
  | shape => ⟨span, shape⟩

/-- The tree with all tests against constants written as comparisons. -/
def desugared (n : Node) : Node := n.fold asComparison

theorem desugared_eq (n : Node) : n.desugared = asComparison n.span (n.shape.map desugared) :=
  fold_eq asComparison n

theorem asComparison_of_kind_ne {span : Span} {shape : Shape Node} (h : shape.kind ≠ .isPattern) :
    asComparison span shape = ⟨span, shape⟩ := by
  cases shape with
  | isPattern => exact absurd rfl h
  | _ => rfl

theorem desugared_of_kind_ne (h : n.kind ≠ .isPattern) :
    n.desugared = ⟨n.span, n.shape.map desugared⟩ := by
  rw [desugared_eq, asComparison_of_kind_ne]
  rwa [Shape.kind_map]

theorem desugared_eq_self (h : n.Everywhere fun m => m.kind ≠ .isPattern) : n.desugared = n := by
  induction n using induction_children with
  | h n ih =>
    rw [desugared_of_kind_ne h.self]
    exact mapChildren_eq_self fun c hc => ih c hc (h.child hc)

theorem desugared_congr {g : Nat → Node → Node}
    (h : ∀ i c, n.children[i]? = some c → (g i c).desugared = c.desugared) :
    (⟨n.span, n.shape.mapIdx g⟩ : Node).desugared = n.desugared := by
  rw [desugared_eq, desugared_eq n, Shape.map, Shape.map, Shape.mapIdx_mapIdx,
    Shape.mapIdx_congr h]

/-- The fix of a comparison stands for the comparison. -/
theorem desugared_of_synthesize (h : ValueEquality.synthesize n = .ok m) :
    m.desugared = n.desugared := by
  cases ValueEquality.becomes_of_synthesize h with
  | @pattern span op left right pattern hpattern =>
    cases op with
    | equals =>
      cases hpattern
      rfl
    | notEquals =>
      cases hpattern
      rfl
    | _ => cases hpattern

/-- A node that is a comparison, or another binary expression, holds text. -/
def ComparisonHoldsText (n : Node) : Prop := n.kind = .binary → n.span.start < n.span.stop

theorem persistent_comparisonHoldsText : Persistent ComparisonHoldsText := by
  constructor
  · intro n hn hkind
    apply absurd _ hn
    rw [isSite, hkind]
    rfl
  · intro n m hm hn hkind
    obtain ⟨hspan, -, hsite⟩ := of_fixed?_eq_some hm
    have hm : m.isSite := by
      rw [isSite, hkind]
      rfl
    rw [hspan]
    exact hn ((hsite hm).symm.trans hkind)
  · intro n g _ hn hkind
    exact hn ((Shape.kind_mapIdx g n.shape).symm.trans hkind)

/-- The comparison `(a == b) != c`, as it is read from source. -/
def comparedTwice : Node :=
  ⟨⟨0, 13⟩, .binary .notEquals
    ⟨⟨1, 7⟩, .binary .equals ⟨⟨1, 2⟩, .identifier "a"⟩ ⟨⟨6, 7⟩, .identifier "b"⟩⟩
    ⟨⟨12, 13⟩, .identifier "c"⟩⟩

end Node

namespace Registry

/-- The registry of the rule on comparisons alone. -/
def comparisons : Registry := ⟨[ValueEquality.rule]⟩

variable {tree t m new : Node} {edits : Edits} {f : Finding} {r : Rule}

theorem mem_comparisons : r ∈ comparisons.rules ↔ r = ValueEquality.rule := List.mem_singleton

theorem isBuiltin_comparisons : comparisons.IsBuiltin := by
  refine ⟨fun r hr => mem_builtin.2 (.inl (mem_comparisons.1 hr)), ?_⟩
  exact List.nodup_singleton _

theorem desugared_replacing (h : edits.Fixes comparisons tree) :
    (tree.replacing edits).desugared = tree.desugared := by
  refine Node.replacing_induction (Q := fun m m' => m'.desugared = m.desugared) ?_ ?_
  · intro n g hg
    exact Node.desugared_congr hg
  · intro p new m hnew hm
    obtain ⟨r, hr, hsynthesize⟩ := h p new m hnew hm
    cases mem_comparisons.1 hr
    exact Node.desugared_of_synthesize hsynthesize

theorem span_nonempty_of_mem_report {oracle : TypeOracle} (htree : tree.Everywhere Node.ComparisonHoldsText)
    (hf : f ∈ comparisons.report oracle tree) : f.span.start < f.span.stop := by
  obtain ⟨r, x, hx⟩ := isBuiltin_comparisons.exists_standsFor hf
  cases mem_comparisons.1 (find?_eq_some hx.rule).1
  rw [Node.span_eq_of_finding? hx.finding]
  exact htree x hx.mem (Kind.rule?_eq_some.1 hx.looks).2.symm

/-- Fixes of comparisons, single ones or all of a tree, mean what the comparisons mean. When the
tree has no tests of its own, it is got back from the fixed tree. -/
theorem desugared_fixed (tree : Node) :
    (∀ f t, comparisons.applyFix tree f = .ok t → t.desugared = tree.desugared) ∧
    (∀ oracle, tree.spanViolation? = none →
      (tree.Everywhere fun m => m.kind = .binary → ¬ m.span.isEmpty) →
      ∃ outcome, comparisons.fixAll oracle tree = .ok outcome ∧
        outcome.tree.desugared = tree.desugared) ∧
    ((tree.Everywhere fun m => m.kind ≠ .isPattern) → tree.desugared = tree) := by
  refine ⟨fun f t ht => ?_, fun oracle hvalid hnonempty => ?_, Node.desugared_eq_self⟩
  · obtain ⟨edits, hfixes, rfl⟩ := exists_replacing_of_applyFix ht
    exact desugared_replacing hfixes
  · have hnest : tree.SpansNest := Node.spanViolation?_eq_none_iff_spansNest.1 hvalid
    have htext : tree.Everywhere Node.ComparisonHoldsText := fun m hm hkind =>
      (Span.start_lt_stop_iff (hnest m hm).ordered).2 (hnonempty m hm hkind)
    obtain ⟨outcome, hfix, -, houtcome⟩ := isBuiltin_comparisons.exists_fixAll
      (P := fun t => t.Everywhere Node.ComparisonHoldsText ∧ t.desugared = tree.desugared)
      (fun t ht f hf => span_nonempty_of_mem_report ht.1 hf)
      (fun t edits ht hfixes =>
        ⟨Node.persistent_comparisonHoldsText.fixes isBuiltin_comparisons ht.1 hfixes,
          (desugared_replacing hfixes).trans ht.2⟩) hnest ⟨htext, rfl⟩
    exact ⟨outcome, hfix, houtcome⟩

theorem desugared_fixed_comparedTwice :
    let fixed : Node := ⟨⟨0, 13⟩, .binary .notEquals
      ⟨⟨1, 7⟩, .isPattern ⟨⟨1, 2⟩, .identifier "a"⟩
        ⟨⟨6, 7⟩, .constantPattern ⟨⟨6, 7⟩, .identifier "b"⟩⟩⟩
      ⟨⟨12, 13⟩, .identifier "c"⟩⟩
    comparisons.applyFix Node.comparedTwice (ValueEquality.rule.findingAt ⟨1, 7⟩) = .ok fixed ∧
      fixed.desugared = Node.comparedTwice ∧
      ∃ outcome, comparisons.fixAll (fun _ => .known true) Node.comparedTwice = .ok outcome ∧
        outcome.tree.desugared = Node.comparedTwice := by
  intro fixed
  have hfix : comparisons.applyFix Node.comparedTwice (ValueEquality.rule.findingAt ⟨1, 7⟩) =
      .ok fixed := by
    cbv
  obtain ⟨hone, hall, hself⟩ := desugared_fixed Node.comparedTwice
  have hself : Node.comparedTwice.desugared = Node.comparedTwice := hself (by decide +kernel)
  obtain ⟨outcome, houtcome, htree⟩ := hall (fun _ => .known true) (by decide +kernel)
    (by decide +kernel)
  exact ⟨hfix, (hone _ fixed hfix).trans hself, outcome, houtcome, htree.trans hself⟩

end Registry

end TreeLint
