import Mathlib.Data.List.Chain
import Mathlib.Tactic.MkIffOfInductiveProp
import TreeLint.Proofs.Traversal
import TreeLint.Syntax.Nesting

namespace TreeLint

namespace Span

variable {a b c : Span}

/-- The spans may belong to the children, in order, of a node with the outer span. -/
structure Holds (outer : Span) (inner : List Span) : Prop where
  ordered : outer.start ≤ outer.stop
  within : ∀ s ∈ inner, outer.contains s
  apart : inner.IsChain fun a b => ¬ a.overlaps b

theorem start_lt_stop_iff (h : a.start ≤ a.stop) : a.start < a.stop ↔ ¬ a.isEmpty := by
  rw [isEmpty, beq_iff_eq]
  simp only [UInt32.le_iff_toNat_le, UInt32.lt_iff_toNat_lt, ← UInt32.toNat_inj] at *
  omega

theorem overlaps_iff : a.overlaps b ↔
    a.start ≠ a.stop ∧ b.start ≠ b.stop ∧ a.start < b.stop ∧ b.start < a.stop := by
  simp only [overlaps, isEmpty, Bool.and_eq_true, Bool.not_eq_true', beq_eq_false_iff_ne,
    decide_eq_true_eq, and_assoc, ne_eq]

theorem overlaps_comm : a.overlaps b ↔ b.overlaps a := by
  rw [overlaps_iff, overlaps_iff]
  tauto

theorem overlaps_of_contains (ha : a.contains c) (hb : b.contains c) (hc : c.start < c.stop) :
    a.overlaps b := by
  rw [contains_iff] at ha hb
  rw [overlaps_iff]
  simp only [UInt32.le_iff_toNat_le, UInt32.lt_iff_toNat_lt, ne_eq, ← UInt32.toNat_inj] at *
  omega

theorem not_overlaps_of_isEmpty (h : a.start = a.stop) : ¬ a.overlaps b :=
  fun hab => (overlaps_iff.1 hab).1 h

@[simp]
theorem not_overlaps_point (offset : UInt32) : ¬ (point offset).overlaps b :=
  not_overlaps_of_isEmpty rfl

@[simp]
theorem not_overlaps_point_right (offset : UInt32) : ¬ b.overlaps (point offset) :=
  fun h => not_overlaps_point offset (overlaps_comm.1 h)

end Span

namespace Node

variable {m n : Node}

theorem siblingViolation?_eq_none_iff {parent : Node} {cs : List Node} :
    parent.siblingViolation? cs = none ↔
      (∀ c ∈ cs, parent.span.contains c.span) ∧
        (cs.map span).IsChain fun a b => ¬ a.overlaps b := by
  induction cs with
  | nil => simp [siblingViolation?]
  | cons c cs ih =>
    cases cs with
    | nil => simp [siblingViolation?]
    | cons d ds =>
      rw [siblingViolation?]
      by_cases hc : parent.span.contains c.span
      · by_cases hcd : c.span.overlaps d.span
        · simp [hc, hcd]
        · simp only [hc, Bool.not_true, Bool.false_eq_true, ↓reduceIte, hcd, ih, List.mem_cons,
            List.map_cons, List.isChain_cons_cons, forall_eq_or_imp, not_false_eq_true, true_and]
      · simp [hc]

theorem violation?_eq_none_iff : n.violation? = none ↔ n.span.Holds (n.children.map span) := by
  rw [violation?]
  split
  · rename_i hinv
    apply iff_of_false (by simp)
    intro h
    have := h.ordered
    rw [UInt32.le_iff_toNat_le] at this
    rw [UInt32.lt_iff_toNat_lt] at hinv
    omega
  · rename_i hinv
    rw [siblingViolation?_eq_none_iff]
    constructor
    · rintro ⟨hw, ha⟩
      refine ⟨?_, by simpa using hw, ha⟩
      rw [UInt32.le_iff_toNat_le]
      rw [UInt32.lt_iff_toNat_lt] at hinv
      omega
    · intro h
      exact ⟨by simpa using h.within, h.apart⟩

/-- No span is inverted, every child lies within its parent, and neighbours do not overlap. -/
def SpansNest (n : Node) : Prop := n.Everywhere fun m => m.span.Holds (m.children.map span)

/-- The check finds no violation exactly in the trees whose spans nest. -/
theorem spanViolation?_eq_none_iff_spansNest : n.spanViolation? = none ↔ n.SpansNest := by
  rw [spanViolation?, Walk.toList_ofNode, List.findSome?_eq_none_iff]
  exact forall₂_congr fun m _ => violation?_eq_none_iff

theorem spansNest_iff :
    n.SpansNest ↔ n.span.Holds (n.children.map span) ∧ ∀ c ∈ n.children, c.SpansNest :=
  everywhere_iff

theorem SpansNest.child {c : Node} (h : n.SpansNest) (hc : c ∈ n.children) : c.SpansNest :=
  Everywhere.child h hc

theorem SpansNest.contained (h : n.SpansNest) : n.Contained :=
  Everywhere.imp (fun _ hm c hc => hm.within c.span (List.mem_map_of_mem hc)) h

/-- A node holds text, its children lie within it, and no two of them share an offset. -/
@[mk_iff]
structure NestsStrictly (n : Node) : Prop where
  nonempty : n.span.start < n.span.stop
  within : ∀ c ∈ n.children, n.span.contains c.span
  apart : n.children.Pairwise fun a b => ¬ a.span.overlaps b.span

instance : DecidablePred NestsStrictly := fun n =>
  decidable_of_iff' _ (nestsStrictly_iff n)

/-- Every node nests strictly. -/
def StrictlyNested (n : Node) : Prop := n.Everywhere NestsStrictly

instance : DecidablePred StrictlyNested :=
  inferInstanceAs (DecidablePred (Everywhere NestsStrictly))

/-- The method `int TryGet() { return a == b; }`, as it is read from source. -/
def tryGet : Node :=
  ⟨⟨0, 30⟩, .methodDecl [] ⟨⟨0, 3⟩, .typeRef (.predefined .int)⟩ "TryGet" []
    ⟨⟨13, 30⟩, .block [⟨⟨15, 29⟩, .returnStmt (some
      ⟨⟨22, 28⟩, .binary .equals ⟨⟨22, 23⟩, .identifier "a"⟩ ⟨⟨27, 28⟩, .identifier "b"⟩⟩)⟩]⟩⟩

example : tryGet.StrictlyNested := by decide +kernel

theorem StrictlyNested.child {c : Node} (h : n.StrictlyNested) (hc : c ∈ n.children) :
    c.StrictlyNested :=
  Everywhere.child h hc

theorem StrictlyNested.below (h : n.StrictlyNested) (hm : m ∈ n.preorder) : m.StrictlyNested :=
  Everywhere.below h hm

theorem StrictlyNested.contained (h : n.StrictlyNested) : n.Contained :=
  Everywhere.imp (fun _ hm => hm.within) h

theorem StrictlyNested.spansNest (h : n.StrictlyNested) : n.SpansNest := by
  refine Everywhere.imp (fun m hm => ⟨?_, ?_, ?_⟩) h
  · exact UInt32.le_of_lt hm.nonempty
  · simpa using hm.within
  · exact (List.pairwise_map.2 hm.apart).isChain

theorem StrictlyNested.span_ne_of_siblings {a b x y : Node} (ha : a.StrictlyNested)
    (hb : b.StrictlyNested) (hab : ¬ a.span.overlaps b.span) (hx : x ∈ a.preorder)
    (hy : y ∈ b.preorder) : x.span ≠ y.span := by
  intro hxy
  have hyb := hb.contained.within hy
  rw [← hxy] at hyb
  exact hab (Span.overlaps_of_contains (ha.contained.within hx) hyb (ha x hx).nonempty)

/-- A child of a node with several children is smaller than the node. -/
theorem StrictlyNested.span_ne_of_child {c x : Node} (h : n.StrictlyNested)
    (hlen : 2 ≤ n.children.length) (hc : c ∈ n.children) (hx : x ∈ c.preorder) :
    x.span ≠ n.span := by
  intro hxn
  have hcn : c.span.contains n.span := hxn ▸ (h.child hc).contained.within hx
  -- Any sibling of the child lies within the node, hence within the child, and overlaps it.
  have hsibling (d : Node) (hd : d ∈ n.children) : c.span.overlaps d.span :=
    Span.overlaps_of_contains (Span.contains_trans hcn (h.self.within d hd))
      (Span.contains_self _) (h.child hd).self.nonempty
  have hapart := h.self.apart
  match hcs : n.children with
  | [] => simp [hcs] at hlen
  | [_] => simp [hcs] at hlen
  | a :: b :: rest =>
    rw [hcs] at hapart hc hsibling
    rcases List.mem_cons.1 hc with rfl | hc
    · exact (List.pairwise_cons.1 hapart).1 b List.mem_cons_self (hsibling b (by simp))
    · exact (List.pairwise_cons.1 hapart).1 c hc
        (Span.overlaps_comm.1 (hsibling a List.mem_cons_self))

end Node

end TreeLint
