import TreeLint.Syntax.Node

namespace TreeLint

namespace Node

/-- All nodes of a tree, parents before children and children from left to right. -/
def preorder (n : Node) : List Node :=
  n :: n.children.attach.flatMap fun ⟨c, _⟩ => c.preorder
termination_by sizeOf n
decreasing_by exact sizeOf_lt_of_mem ‹_›

theorem preorder_eq (n : Node) : n.preorder = n :: n.children.flatMap preorder := by
  rw [preorder, List.flatMap_subtype (fun _ _ => rfl), List.unattach_attach]

/-- The number of nodes. -/
def size (n : Node) : Nat := n.preorder.length

theorem self_mem_preorder (n : Node) : n ∈ n.preorder := by
  rw [preorder_eq]
  exact List.mem_cons_self

end Node

/-- A pre-order walk under way: which children it enters and what it has yet to visit, the next
node first. -/
structure Walk where
  enters : Node → Bool
  pending : List Node

namespace Walk

def ofNode (root : Node) : Walk := ⟨fun _ => true, [root]⟩

/-- The walk from a root into those children whose spans contain the span. -/
def around (root : Node) (span : Span) : Walk := ⟨fun n => n.span.contains span, [root]⟩

def next? : Walk → Option (Node × Walk)
  | ⟨_, []⟩ => none
  | ⟨enters, n :: rest⟩ => some (n, ⟨enters, n.children.filter enters ++ rest⟩)

/-- The number of nodes below and among those still to visit. -/
def remaining (w : Walk) : Nat := (w.pending.flatMap Node.preorder).length

theorem remaining_next? {w w' : Walk} {n : Node} (h : w.next? = some (n, w')) :
    w'.remaining < w.remaining := by
  obtain ⟨enters, pending⟩ := w
  cases pending with
  | nil => simp [next?] at h
  | cons m rest =>
    obtain ⟨rfl, rfl⟩ : m = n ∧ _ = w' := by simpa [next?] using h
    have hle (cs : List Node) :
        ((cs.filter enters).flatMap Node.preorder).length ≤ (cs.flatMap Node.preorder).length := by
      induction cs with
      | nil => simp
      | cons c cs ih =>
        rw [List.flatMap_cons, List.length_append]
        by_cases hc : enters c
        · rw [List.filter_cons_of_pos hc, List.flatMap_cons, List.length_append]
          omega
        · rw [List.filter_cons_of_neg hc]
          omega
    have hfiltered := hle m.children
    rw [remaining, remaining, List.flatMap_append, List.flatMap_cons, m.preorder_eq]
    simp only [List.length_append, List.length_cons]
    omega

def toList (w : Walk) : List Node :=
  match _h : w.next? with
  | none => []
  | some (n, w') => n :: w'.toList
termination_by w.remaining
decreasing_by exact remaining_next? ‹_›

end Walk

namespace Node

/-- The outermost node of a kind with exactly this span, looked for only inside nodes whose spans
contain the span. -/
def findSpan? (root : Node) (span : Span) (kind : Kind) : Option Node :=
  (Walk.around root span).toList.find? fun n => n.span == span && n.kind == kind

end Node

end TreeLint
