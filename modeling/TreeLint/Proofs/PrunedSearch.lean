import TreeLint.Proofs.SearchStops

namespace TreeLint

namespace Node

variable {span : Span} {kind : Kind} {a m n root : Node} {p q : Path}

/-- The node has the span and the kind. -/
def IsAt (span : Span) (kind : Kind) (n : Node) : Bool := n.span == span && n.kind == kind

theorem isAt_iff : n.IsAt span kind ↔ n.span = span ∧ n.kind = kind := by
  rw [IsAt, Bool.and_eq_true, beq_iff_eq, beq_iff_eq]

theorem Contained.find?_places_eq_none (h : n.Contained) (hspan : ¬ n.span.contains span) :
    (n.places.find? fun p => (n.subtree? p).any (IsAt span kind)) = none := by
  rw [List.find?_eq_none]
  intro p _ hp
  obtain ⟨m, hm, hat⟩ := (Option.any_eq_true _ _).1 hp
  have hwithin := h.within (mem_preorder_of_subtree? hm)
  rw [(isAt_iff.1 hat).1] at hwithin
  exact hspan hwithin

/-- The search stops at the first position in pre-order at which there is such a node. -/
theorem Contained.stop?_eq_find?_places (h : root.Contained) (span : Span) (kind : Kind) :
    root.stop? span kind = root.places.find? fun p => (root.subtree? p).any (IsAt span kind) := by
  induction root using induction_children with
  | h n ih =>
    rw [stop?_eq, places_eq, List.find?_cons, subtree?, Option.any_some]
    by_cases hn : n.span = span ∧ n.kind = kind
    · rw [if_pos hn, isAt_iff.2 hn]
    · have hself : n.IsAt span kind = false := by rwa [← Bool.not_eq_true, isAt_iff]
      rw [if_neg hn, hself, List.find?_flatMap]
      apply findSome?_congr
      rintro ⟨c, i⟩ hci
      have hc : c ∈ n.children := List.fst_mem_of_mem_zipIdx hci
      have hbelow : ((fun p => (n.subtree? p).any (IsAt span kind)) ∘ (i :: ·)) =
          fun p => (c.subtree? p).any (IsAt span kind) := by
        funext p
        rw [Function.comp_apply, subtree?_cons_of_mem_zipIdx hci]
      dsimp only
      rw [List.find?_map, hbelow]
      split
      · rw [ih c hc (h.child hc)]
      · rename_i hspan
        rw [(h.child hc).find?_places_eq_none hspan, Option.map_none]

theorem Located.not_isAt_above (h : Located span kind n p m) (hq : q <+: p) (hne : q ≠ p)
    (ha : n.subtree? q = some a) : ¬ a.IsAt span kind := by
  induction h generalizing q with
  | here => exact absurd (List.prefix_nil.1 hq) hne
  | @child n c m as bs p hn hchildren has hc _ ih =>
    cases q with
    | nil =>
      cases ha
      rwa [isAt_iff]
    | cons i q =>
      obtain ⟨rfl, hqp⟩ := List.cons_prefix_cons.1 hq
      rw [subtree?_cons, hchildren] at ha
      apply ih hqp
      · rintro rfl
        exact hne rfl
      · simpa using ha

/-- Where children lie within their parents, the search finds the first node with the span and the
kind that a walk through the whole tree visits. It finds none only if there is none; and it stops at
the first such position in pre-order, with no such node above it. -/
theorem Contained.findSpan?_first_of_walk (h : root.Contained) (span : Span) (kind : Kind) :
    root.findSpan? span kind = (Walk.ofNode root).toList.find? (IsAt span kind) ∧
    (root.findSpan? span kind = none ↔
      ∀ n ∈ (Walk.ofNode root).toList, ¬ (n.span = span ∧ n.kind = kind)) ∧
    ∀ m, root.findSpan? span kind = some m → ∃ p, root.subtree? p = some m ∧
      root.stop? span kind = some p ∧
      (root.places.find? fun q => (root.subtree? q).any (IsAt span kind)) = some p ∧
      ∀ q a, q <+: p → q ≠ p → root.subtree? q = some a → ¬ (a.span = span ∧ a.kind = kind) := by
  refine ⟨?_, ?_, ?_⟩
  · rw [Walk.toList_ofNode]
    exact h.findSpan?_eq span kind
  · rw [Walk.toList_ofNode, h.findSpan?_eq, List.find?_eq_none]
    exact forall₂_congr fun n _ => not_congr isAt_iff
  · intro m hm
    obtain ⟨p, hp⟩ := exists_located hm
    refine ⟨p, hp.subtree?_eq, hp.stop?_eq, ?_, ?_⟩
    · rw [← h.stop?_eq_find?_places]
      exact hp.stop?_eq
    · intro q a hq hne ha
      rw [← isAt_iff]
      exact hp.not_isAt_above hq hne ha

theorem findSpan?_first_of_walk_inverted :
    let inner : Node := ⟨⟨8, 3⟩, .notPattern ⟨⟨9, 2⟩, .identifier "a"⟩⟩
    let outer : Node := ⟨⟨8, 3⟩, .notPattern inner⟩
    let statement : Node := ⟨⟨0, 9⟩, .exprStmt outer⟩
    statement.Contained ∧ statement.findSpan? ⟨8, 3⟩ .notPattern = some outer ∧
      (Walk.ofNode statement).toList.find? (IsAt ⟨8, 3⟩ .notPattern) = some outer ∧
      ∃ p, statement.subtree? p = some outer ∧ statement.stop? ⟨8, 3⟩ .notPattern = some p := by
  intro inner outer statement
  have hcontained : statement.Contained := by decide +kernel
  obtain ⟨hwalk, -, hplace⟩ := hcontained.findSpan?_first_of_walk ⟨8, 3⟩ .notPattern
  have hfound : statement.findSpan? ⟨8, 3⟩ .notPattern = some outer := by decide +kernel
  obtain ⟨p, hp, hstop, -, -⟩ := hplace outer hfound
  exact ⟨hcontained, hfound, hwalk ▸ hfound, p, hp, hstop⟩

end Node

end TreeLint
