import TreeLint.Proofs.Nesting

namespace TreeLint

namespace Span

variable {a b c : Span}

theorem not_overlaps_behind (hac : ¬ a.overlaps c) (hc : c.start < c.stop)
    (hstart : a.start ≤ c.start) (hcb : c.start ≤ b.start) : ¬ a.overlaps b := by
  intro hab
  rw [overlaps_iff] at hab hac
  simp only [ne_eq, ← UInt32.toNat_inj, UInt32.lt_iff_toNat_lt, UInt32.le_iff_toNat_le] at *
  omega

end Span

namespace Node

variable {a b c m n root : Node} {as bs cs : List Node}

/-- The siblings stand in the order of their starts. -/
def InOrder (ns : List Node) : Prop := ns.Pairwise fun c d => c.span.start ≤ d.span.start

instance : DecidablePred InOrder := fun ns =>
  inferInstanceAs (Decidable (ns.Pairwise fun c d => c.span.start ≤ d.span.start))

theorem SpansNest.start_le_stop (h : n.SpansNest) : n.span.start ≤ n.span.stop :=
  (spansNest_iff.1 h).1.ordered

theorem SpansNest.not_overlaps_next (h : n.SpansNest) (hn : n.children = as ++ a :: b :: bs) :
    ¬ a.span.overlaps b.span := by
  have hchain := (spansNest_iff.1 h).1.apart
  have hpair : [a.span, b.span] <:+: n.children.map span := by
    rw [hn, List.map_append]
    exact ⟨as.map span, bs.map span, by simp⟩
  have hneighbours := List.IsChain.infix hchain hpair
  exact List.isChain_pair.1 hneighbours

theorem SpansNest.not_overlaps_later (h : n.SpansNest) (hn : n.children = as ++ a :: c :: bs)
    (hc : ¬ c.span.isEmpty) (hac : a.span.start ≤ c.span.start)
    (hcb : c.span.start ≤ b.span.start) : ¬ a.span.overlaps b.span := by
  have hmem : c ∈ n.children := by simp [hn]
  have htext : c.span.start < c.span.stop :=
    (Span.start_lt_stop_iff (h.child hmem).start_le_stop).2 hc
  exact Span.not_overlaps_behind (h.not_overlaps_next hn) htext hac hcb

theorem holds_iff : n.span.Holds (n.children.map span) ↔
    n.span.start ≤ n.span.stop ∧ (∀ c ∈ n.children, n.span.contains c.span) ∧
      n.children.IsChain fun a b => ¬ a.span.overlaps b.span := by
  constructor
  · intro h
    exact ⟨h.ordered, List.forall_mem_map.1 h.within, (List.isChain_map span).1 h.apart⟩
  · rintro ⟨hordered, hwithin, hapart⟩
    exact ⟨hordered, List.forall_mem_map.2 hwithin, (List.isChain_map span).2 hapart⟩

/-- The check accepts a tree when no span is inverted, children lie within their parents and
neighbours do not overlap. Two siblings that overlap in it are not neighbours: the one behind the
first is empty, or the siblings from the first to the second are out of order. -/
theorem siblings_of_checked (root : Node) :
    (root.spanViolation? = none ↔ root.Everywhere fun m =>
      m.span.start ≤ m.span.stop ∧ (∀ c ∈ m.children, m.span.contains c.span) ∧
        m.children.IsChain fun a b => ¬ a.span.overlaps b.span) ∧
    (root.spanViolation? = none → ∀ m ∈ root.preorder, ∀ as a bs b cs,
      m.children = as ++ a :: (bs ++ b :: cs) → a.span.overlaps b.span →
        bs ≠ [] ∧ ((∃ c ∈ bs.head?, c.span.isEmpty) ∨ ¬ InOrder (a :: (bs ++ [b])))) := by
  constructor
  · rw [spanViolation?_eq_none_iff_spansNest]
    exact forall₂_congr fun m _ => holds_iff
  · intro h m hm as a bs b cs hchildren hoverlaps
    have hnest : m.SpansNest := Everywhere.below (spanViolation?_eq_none_iff_spansNest.1 h) hm
    cases bs with
    | nil => exact absurd hoverlaps (hnest.not_overlaps_next hchildren)
    | cons c bs =>
      constructor
      · exact List.cons_ne_nil c bs
      · by_cases hc : c.span.isEmpty
        · exact .inl ⟨c, rfl, hc⟩
        · apply Or.inr
          intro hinOrder
          obtain ⟨hac, hrest⟩ := List.pairwise_cons.1 hinOrder
          have hcb := (List.pairwise_cons.1 hrest).1 b (by simp)
          exact hnest.not_overlaps_later hchildren hc (hac c (by simp)) hcb hoverlaps

theorem siblings_of_checked_backwards :
    let first : Node := ⟨⟨5, 8⟩, .returnStmt none⟩
    let second : Node := ⟨⟨0, 3⟩, .returnStmt none⟩
    let third : Node := ⟨⟨6, 9⟩, .returnStmt none⟩
    let block : Node := ⟨⟨0, 9⟩, .block [first, second, third]⟩
    block.spanViolation? = none ∧ first.span.overlaps third.span ∧
      ¬ InOrder [first, second, third] := by
  intro first second third block
  have hchecked : block.spanViolation? = none := by decide +kernel
  have hoverlaps : first.span.overlaps third.span := by decide
  obtain ⟨-, hreason⟩ := (siblings_of_checked block).2 hchecked block block.self_mem_preorder
    [] first [second] third [] rfl hoverlaps
  refine ⟨hchecked, hoverlaps, hreason.resolve_left ?_⟩
  rintro ⟨c, hc, hempty⟩
  cases hc
  exact absurd hempty (by decide)

/-- Two statements overlap in a block that the check accepts: the empty statement between them
overlaps neither. -/
theorem siblings_overlap_around_empty :
    let first : Node := ⟨⟨0, 5⟩, .returnStmt none⟩
    let empty : Node := ⟨⟨5, 5⟩, .returnStmt none⟩
    let second : Node := ⟨⟨3, 8⟩, .returnStmt none⟩
    let block : Node := ⟨⟨0, 8⟩, .block [first, empty, second]⟩
    block.spanViolation? = none ∧ first.span.overlaps second.span := by
  intro first empty second block
  exact ⟨by decide +kernel, by decide⟩

end Node

end TreeLint
