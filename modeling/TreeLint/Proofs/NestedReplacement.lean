import TreeLint.Proofs.Builtin
import TreeLint.Proofs.FinalReturn

namespace TreeLint

namespace Span

variable {outer s : Span} {l k : List Span}

theorem contains_start (h : outer.contains s) (hs : s.start ≤ s.stop) :
    outer.contains (point s.start) := by
  rw [contains_iff] at *
  exact ⟨h.1, UInt32.le_trans hs h.2⟩

theorem contains_stop (h : outer.contains s) (hs : s.start ≤ s.stop) :
    outer.contains (point s.stop) := by
  rw [contains_iff] at *
  exact ⟨UInt32.le_trans h.1 hs, h.2⟩

theorem Holds.insert_point {offset : UInt32} (h : outer.Holds (l ++ k))
    (hpoint : outer.contains (point offset)) : outer.Holds (l ++ point offset :: k) := by
  refine ⟨h.ordered, fun s hs => ?_, ?_⟩
  · rcases List.mem_append.1 hs with hs | hs
    · exact h.within s (List.mem_append_left _ hs)
    · rcases List.mem_cons.1 hs with rfl | hs
      · exact hpoint
      · exact h.within s (List.mem_append_right _ hs)
  · refine List.isChain_append.2 ⟨h.apart.left_of_append, ?_, ?_⟩
    · exact h.apart.right_of_append.cons fun _ _ => not_overlaps_point offset
    · rintro a - b hb
      cases hb
      exact not_overlaps_point_right offset

end Span

namespace Node

theorem spansNest_of_point {n : Node} (offset : UInt32)
    (h : n.Everywhere fun m => m.span = .point offset) : n.SpansNest := by
  intro m hm
  have hchild (s : Span) (hs : s ∈ m.children.map span) : s = .point offset := by
    obtain ⟨c, hc, rfl⟩ := List.mem_map.1 hs
    exact h c (mem_preorder_trans (mem_preorder_of_child hc c.self_mem_preorder) hm)
  rw [h m hm]
  refine ⟨UInt32.le_refl _, fun s hs => ?_, ?_⟩
  · rw [hchild s hs]
    exact Span.contains_self _
  · refine List.Pairwise.isChain (List.pairwise_of_forall_mem_list fun a ha b _ => ?_)
    rw [hchild a ha]
    exact Span.not_overlaps_point offset

theorem spansNest_mk {span : Span} {shape : Shape Node} :
    (⟨span, shape⟩ : Node).SpansNest ↔
      span.Holds (shape.children.map Node.span) ∧ ∀ c ∈ shape.children, c.SpansNest :=
  spansNest_iff

end Node

/-- A rule that makes nested nodes of nested ones and keeps the span of the node it replaces. -/
def Rule.KeepsNesting (r : Rule) : Prop :=
  ∀ ⦃n new : Node⦄, n.SpansNest → r.synthesize n = .ok new → new.SpansNest ∧ new.span = n.span

namespace ValueEquality

theorem spansNest_patternFor? {op : Operator} {right pattern : Node} (h : right.SpansNest)
    (hp : patternFor? op right = some pattern) :
    pattern.SpansNest ∧ pattern.span = right.span := by
  have hholds : right.span.Holds [right.span] :=
    ⟨(Node.spansNest_iff.1 h).1.ordered, by simp, .singleton _⟩
  have hconstant : (⟨right.span, .constantPattern right⟩ : Node).SpansNest := by
    refine Node.spansNest_mk.2 ⟨hholds, ?_⟩
    intro c hc
    cases List.mem_singleton.1 hc
    exact h
  rw [patternFor?.eq_def] at hp
  split at hp
  · cases hp
    exact ⟨hconstant, rfl⟩
  · cases hp
    refine ⟨Node.spansNest_mk.2 ⟨hholds, ?_⟩, rfl⟩
    intro c hc
    cases List.mem_singleton.1 hc
    exact hconstant
  · cases hp

theorem rule_keepsNesting : rule.KeepsNesting := by
  intro n new hn h
  cases becomes_of_synthesize h with
  | @pattern span op left right pattern hpattern =>
    obtain ⟨hholds, hchildren⟩ := Node.spansNest_mk.1 hn
    obtain ⟨hp, hspan⟩ := spansNest_patternFor? (hchildren right (by simp [Shape.children]))
      hpattern
    refine ⟨Node.spansNest_mk.2 ⟨?_, ?_⟩, rfl⟩
    · simpa [Shape.children, hspan] using hholds
    · intro c hc
      simp only [Shape.children, List.mem_cons, List.not_mem_nil, or_false] at hc
      rcases hc with rfl | rfl
      · exact hchildren c (by simp [Shape.children])
      · exact hp

end ValueEquality

namespace TryMethod

theorem spansNest_initialization (offset : UInt32) : (initialization (.point offset)).SpansNest := by
  apply Node.spansNest_of_point offset
  simp [initialization, Node.everywhere_mk, Shape.children]

theorem spansNest_returnBool (offset : UInt32) (value : Bool) :
    (returnBool (.point offset) value).SpansNest := by
  apply Node.spansNest_of_point offset
  simp [returnBool, Node.everywhere_mk, Shape.children]

theorem spansNest_failureClause (offset : UInt32) : (failureClause (.point offset)).SpansNest := by
  apply Node.spansNest_of_point offset
  simp [failureClause, returnBool, Node.everywhere_mk, Shape.children]

theorem spansNest_outParameter (offset : UInt32) (type : TypeName) :
    (outParameter (.point offset) type).SpansNest := by
  apply Node.spansNest_of_point offset
  simp [outParameter, Node.everywhere_mk, Shape.children]

theorem spansNest_assignment {n new : Node} {value : Option Node} (hn : n.SpansNest)
    (hshape : n.shape = .returnStmt value) (h : assignment n.span value = .ok new) :
    new.SpansNest ∧ new.span = n.span := by
  obtain ⟨span, shape⟩ := n
  cases hshape
  cases value with
  | none => cases h
  | some value =>
    cases h
    obtain ⟨hholds, hchildren⟩ := Node.spansNest_mk.1 hn
    have hstart : span.contains (.point span.start) :=
      Span.contains_start (Span.contains_self _) hholds.ordered
    have hname : (⟨.point span.start, .identifier outName⟩ : Node).SpansNest :=
      Node.spansNest_mk.2 ⟨⟨UInt32.le_refl _, by simp [Shape.children], .nil⟩,
        by simp [Shape.children]⟩
    have hassign :
        (⟨span, .assignment ⟨.point span.start, .identifier outName⟩ value⟩ : Node).SpansNest := by
      refine Node.spansNest_mk.2 ⟨hholds.insert_point (l := []) hstart, ?_⟩
      intro c hc
      simp only [Shape.children, List.mem_cons, List.not_mem_nil, or_false] at hc
      rcases hc with rfl | rfl
      · exact hname
      · exact hchildren c (by simp [Shape.children])
    refine ⟨Node.spansNest_mk.2 ⟨⟨hholds.ordered, by simp [Shape.children], .singleton _⟩, ?_⟩, rfl⟩
    intro c hc
    cases List.mem_singleton.1 hc
    exact hassign

theorem spansNest_fixIf {statement thenBranch fixed : Node} (hs : statement.SpansNest)
    (h : fixIf statement thenBranch = .ok fixed) :
    fixed.SpansNest ∧ fixed.span = statement.span := by
  cases becomes_of_fixIf h with
  | unchanged => exact ⟨hs, rfl⟩
  | assigned htarget hshape hassigned hnew =>
    have hnest := hs.below (Node.mem_preorder_of_subtree? htarget)
    obtain ⟨hassignedNest, hspan⟩ := spansNest_assignment hnest hshape hassigned
    exact hs.replace? htarget hspan hassignedNest hnew

theorem spansNest_fixStatement {statement fixed : Node} (hs : statement.SpansNest)
    (h : fixStatement statement = .ok fixed) :
    fixed.SpansNest ∧ fixed.span = statement.span := by
  rw [fixStatement.eq_def] at h
  split at h
  · rename_i value hshape
    exact spansNest_assignment hs hshape h
  · exact spansNest_fixIf hs h
  · cases h
    exact ⟨hs, rfl⟩

theorem holds_fixed {outer : Span} {statements fixed : List Node}
    (hholds : outer.Holds (statements.map Node.span)) (hnest : ∀ s ∈ statements, s.SpansNest)
    (h : List.Forall₂ (fun s t => fixStatement s = .ok t) statements fixed) :
    outer.Holds (fixed.map Node.span) ∧ ∀ t ∈ fixed, t.SpansNest := by
  have hkept : fixed.map Node.span = statements.map Node.span ∧ ∀ t ∈ fixed, t.SpansNest := by
    clear hholds
    induction h with
    | nil => simp
    | cons hst _ ih =>
      obtain ⟨ht, hspan⟩ := spansNest_fixStatement (hnest _ List.mem_cons_self) hst
      obtain ⟨hspans, hrest⟩ := ih fun s hs => hnest s (List.mem_cons_of_mem _ hs)
      refine ⟨by rw [List.map_cons, List.map_cons, hspan, hspans], fun t hmem => ?_⟩
      rcases List.mem_cons.1 hmem with rfl | hmem
      · exact ht
      · exact hrest t hmem
  exact ⟨hkept.1 ▸ hholds, hkept.2⟩

/-- Both new blocks and the `try` between them have the span of the old block, before and behind
which the new statements are points. -/
theorem spansNest_fixBody {span : Span} {statements : List Node} {body : Node}
    (hb : (⟨span, .block statements⟩ : Node).SpansNest) (h : fixBody span statements = .ok body) :
    body.SpansNest ∧ body.span = span := by
  rw [fixBody, bind_eq_ok] at h
  obtain ⟨fixed, hfixed, h⟩ := h
  cases h
  obtain ⟨hholds, hchildren⟩ := Node.spansNest_mk.1 hb
  obtain ⟨hfixedHolds, hfixedNest⟩ := holds_fixed hholds hchildren (mapM_eq_ok.1 hfixed)
  have hstart : span.contains (.point span.start) :=
    Span.contains_start (Span.contains_self _) hholds.ordered
  have hstop : span.contains (.point span.stop) :=
    Span.contains_stop (Span.contains_self _) hholds.ordered
  have hself : span.Holds [span] := ⟨hholds.ordered, by simp, .singleton _⟩
  have hguarded : (⟨span, .block (fixed ++ [returnBool (.point span.stop) true])⟩ :
      Node).SpansNest := by
    refine Node.spansNest_mk.2 ⟨?_, fun c hc => ?_⟩
    · rw [Shape.children, List.map_append]
      exact Span.Holds.insert_point (by simpa using hfixedHolds) hstop
    · rcases List.mem_append.1 hc with hc | hc
      · exact hfixedNest c hc
      · cases List.mem_singleton.1 hc
        exact spansNest_returnBool _ _
  have htry : (⟨span, .tryStmt ⟨span, .block (fixed ++ [returnBool (.point span.stop) true])⟩
      [failureClause (.point span.stop)] none⟩ : Node).SpansNest := by
    refine Node.spansNest_mk.2 ⟨hself.insert_point (l := [span]) hstop, fun c hc => ?_⟩
    simp only [Shape.children, Option.toList_none, List.append_nil, List.mem_cons,
      List.not_mem_nil, or_false] at hc
    rcases hc with rfl | rfl
    · exact hguarded
    · exact spansNest_failureClause _
  refine ⟨Node.spansNest_mk.2 ⟨hself.insert_point (l := []) hstart, fun c hc => ?_⟩, rfl⟩
  simp only [Shape.children, List.mem_cons, List.not_mem_nil, or_false] at hc
  rcases hc with rfl | rfl
  · exact spansNest_initialization _
  · exact htry

/-- The new parameter is a point inside the method, whether or not there are others. -/
theorem contains_outOffset {span : Span} {returnType body : Node} {parameters : List Node}
    (hholds : span.Holds ((returnType :: (parameters ++ [body])).map Node.span))
    (hnest : ∀ c ∈ returnType :: (parameters ++ [body]), c.SpansNest) :
    span.contains (.point (outOffset returnType parameters)) := by
  have hinside (c : Node) (hc : c ∈ returnType :: (parameters ++ [body])) :
      span.contains (.point c.span.stop) :=
    Span.contains_stop (hholds.within _ (List.mem_map_of_mem hc))
      (Node.spansNest_iff.1 (hnest c hc)).1.ordered
  rw [outOffset.eq_def]
  split
  · rename_i p hp
    exact hinside p (by simp [List.mem_of_getLast? hp])
  · exact hinside returnType List.mem_cons_self

theorem rule_keepsNesting : rule.KeepsNesting := by
  intro n new hn h
  cases becomes_of_synthesize h with
  | @method span typeSpan bodySpan modifiers type name parameters statements body hbody =>
    obtain ⟨hholds, hchildren⟩ := Node.spansNest_mk.1 hn
    have hblock := hchildren ⟨bodySpan, .block statements⟩ (by simp [Shape.children])
    obtain ⟨hbodyNest, hbodySpan⟩ := spansNest_fixBody hblock hbody
    have htype := (Node.spansNest_mk.1 (hchildren _ List.mem_cons_self)).1
    refine ⟨Node.spansNest_mk.2 ⟨?_, ?_⟩, rfl⟩
    · have hpoint := contains_outOffset hholds hchildren
      rw [Shape.children, List.map_cons, List.map_append] at hholds
      have hnew := hholds.insert_point (l := typeSpan :: parameters.map Node.span) hpoint
      simpa [Shape.children, outParameter, hbodySpan] using hnew
    · intro c hc
      simp only [Shape.children, List.append_assoc, List.mem_cons, List.mem_append,
        List.not_mem_nil, or_false] at hc
      rcases hc with rfl | hc | rfl | rfl
      · exact Node.spansNest_mk.2 ⟨⟨htype.ordered, by simp [Shape.children], .nil⟩,
          by simp [Shape.children]⟩
      · exact hchildren c (by simp [Shape.children, hc])
      · exact spansNest_outParameter _ _
      · exact hbodyNest

end TryMethod

theorem Registry.keepsNesting_of_mem_builtin {r : Rule} (h : r ∈ builtin.rules) :
    r.KeepsNesting := by
  rcases mem_builtin.1 h with rfl | rfl
  · exact ValueEquality.rule_keepsNesting
  · exact TryMethod.rule_keepsNesting

end TreeLint
