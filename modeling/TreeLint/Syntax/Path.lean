import TreeLint.Syntax.Node

namespace TreeLint

/-- A position in a tree: the child indices on the way down from the root. -/
abbrev Path := List Nat

namespace Node

def subtree? : Node → Path → Option Node
  | n, [] => some n
  | n, i :: p => do (← n.children[i]?).subtree? p

def replace? : Node → Path → Node → Option Node
  | _, [], new => some new
  | n, i :: p, new => do n.withChild? i (← (← n.children[i]?).replace? p new)

/-- The position of the first node in pre-order that equals the target, looked for only inside
nodes whose spans contain the target's span. -/
def pathTo? (target root : Node) : Option Path :=
  if root = target then
    some []
  else
    root.children.zipIdx.attach.findSome? fun ⟨(c, i), _⟩ =>
      if c.span.contains target.span then (pathTo? target c).map (i :: ·) else none
termination_by sizeOf root
decreasing_by
  rename_i h _
  exact sizeOf_lt_of_mem (by simpa using List.fst_mem_of_mem_zipIdx h)

end Node

end TreeLint
