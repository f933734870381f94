import TreeLint.Document
import TreeLint.Proofs.FixFailures

namespace TreeLint

/-- What the rules of the registry report at the node holds text. -/
def Node.ReportsText (registry : Registry) (types : TypeTable) (n : Node) : Prop :=
  ∀ r ∈ registry.rules, r.reported? types.oracle n ≠ none → n.span.start < n.span.stop

namespace Registry

variable {registry : Registry} {types : TypeTable} {tree : Node} {f : Finding}

theorem IsBuiltin.persistent_reportsText (h : registry.IsBuiltin) (types : TypeTable) :
    Persistent (Node.ReportsText registry types) := by
  constructor
  · intro n hn r hr hreported
    exact absurd (Rule.reported?_eq_none (h.subset r hr) hn) hreported
  · intro n m hm hn r hr hreported
    exact absurd (Rule.reported?_of_fixed? (h.subset r hr) hm) hreported
  · intro n g hg hn r hr hreported
    rw [Rule.reported?_mapIdx (h.subset r hr) hg] at hreported
    exact hn r hr hreported

theorem IsBuiltin.span_nonempty_of_mem_report (h : registry.IsBuiltin)
    (htree : tree.Everywhere (Node.ReportsText registry types))
    (hf : f ∈ registry.report types.oracle tree) : f.span.start < f.span.stop := by
  obtain ⟨r, hr, x, hx, hreported⟩ := mem_report.1 hf
  rw [Node.span_eq_of_finding? (Rule.finding?_of_reported? (h.subset r hr) hreported)]
  apply htree x hx r hr
  rw [hreported]
  exact Option.some_ne_none f

theorem IsBuiltin.everywhere_reportsText (h : registry.IsBuiltin) (htree : tree.SpansNest)
    (htext : ∀ f ∈ registry.report types.oracle tree, ¬ f.span.isEmpty) :
    tree.Everywhere (Node.ReportsText registry types) := by
  intro x hx r hr hreported
  obtain ⟨f, hf⟩ := Option.ne_none_iff_exists'.1 hreported
  have hspan := Node.span_eq_of_finding? (Rule.finding?_of_reported? (h.subset r hr) hf)
  apply (Span.start_lt_stop_iff (htree x hx).ordered).2
  rw [← hspan]
  exact htext f (mem_report.2 ⟨r, hr, x, hx, hf⟩)

/-- When all that is reported holds text, fixing succeeds, and so it is in the fixed tree. -/
theorem IsBuiltin.exists_fixAll_reportsText (h : registry.IsBuiltin) (htree : tree.SpansNest)
    (htext : tree.Everywhere (Node.ReportsText registry types)) :
    ∃ outcome, registry.fixAll types.oracle tree = .ok outcome ∧
      outcome.tree.Everywhere (Node.ReportsText registry types) := by
  apply h.exists_fixAll _ _ htree htext
  · intro tree htree f hf
    exact h.span_nonempty_of_mem_report htree hf
  · intro tree edits htree hfixes
    exact (h.persistent_reportsText types).fixes h htree hfixes

end Registry

namespace Document

variable {registry : Registry} {d : Document}

theorem exists_review (h : registry.IsBuiltin) (hvalid : d.tree.spanViolation? = none)
    (htext : ∀ f ∈ registry.report d.types.oracle d.tree, ¬ f.span.isEmpty) :
    ∃ review, d.review registry = .ok review := by
  have hnest : d.tree.SpansNest := Node.spanViolation?_eq_none_iff_spansNest.1 hvalid
  obtain ⟨outcome, hfix, -⟩ :=
    h.exists_fixAll_reportsText hnest (h.everywhere_reportsText hnest htext)
  rw [review, hvalid]
  dsimp only
  split
  · exact ⟨_, rfl⟩
  · rw [hfix]
    exact ⟨_, rfl⟩

/-- Reviewing a document without span violation succeeds when all its findings hold text. It never
fails but at an empty span, where no node is left for a fix. -/
theorem review_of_valid (h : registry.IsBuiltin) (hvalid : d.tree.spanViolation? = none) :
    ((∀ f ∈ registry.report d.types.oracle d.tree, ¬ f.span.isEmpty) →
      ∃ review, d.review registry = .ok review) ∧
    ∀ e, d.review registry = .error e →
      ∃ kind span, e = .fixing (.substitution (.notFound kind span)) ∧ span.isEmpty := by
  constructor
  · exact exists_review h hvalid
  · intro e he
    rw [review, hvalid] at he
    dsimp only at he
    split at he
    · cases he
    · split at he
      · rename_i cause hfix
        cases he
        have hnest : d.tree.SpansNest := Node.spanViolation?_eq_none_iff_spansNest.1 hvalid
        obtain ⟨kind, span, rfl, hempty⟩ := h.fixPasses_fails hnest hfix
        exact ⟨kind, span, rfl, hempty⟩
      · cases he

theorem review_of_valid_tryGet :
    ∃ review, (Document.mk Node.tryGet TypeTable.tryGet).review .builtin = .ok review :=
  (review_of_valid Registry.isBuiltin_builtin (by decide +kernel)).1 (by decide +kernel)

/-- Both sides of the assignment `a == b = (c == d) == e` compare, and none of its nodes has text.
-/
def textless : Document where
  tree :=
    let name (s : String) : Node := ⟨⟨0, 0⟩, .identifier s⟩
    let equals (left right : Node) : Node := ⟨⟨0, 0⟩, .binary .equals left right⟩
    ⟨⟨0, 0⟩, .assignment (equals (name "a") (name "b"))
      (equals (equals (name "c") (name "d")) (name "e"))⟩
  types := .ofEntries [⟨⟨0, 0⟩, .known true⟩]

/-- All three fixes are built from the first comparison and put in one after another. The second one
overwrites the right side, and the third one finds no comparison any more. -/
theorem review_textless : textless.tree.spanViolation? = none ∧
    textless.review .builtin = .error (.fixing (.substitution (.notFound .binary ⟨0, 0⟩))) := by
  constructor
  · decide +kernel
  · cbv

end Document

end TreeLint
