import TreeLint.Syntax.Path
import TreeLint.Syntax.Walk

namespace TreeLint

inductive SubstitutionError where
  | notFound (kind : Kind) (span : Span)
  | malformedReplacement (expected found : Category)
  | overlapping (offset : UInt32)
deriving DecidableEq, Repr

def SubstitutionError.message : SubstitutionError → String
  | notFound kind span => kind.name ++ " at " ++ toString span ++ " not found in tree"
  | malformedReplacement expected found =>
    "malformed replacement: " ++ found.name ++ " node cannot replace a " ++ expected.name ++ " node"
  | overlapping offset =>
    "overlapping replacements detected at offset " ++ toString offset.toNat

/-- A new subtree for the node of a kind with a span. -/
structure Replacement where
  span : Span
  kind : Kind
  node : Node
deriving DecidableEq, Repr

namespace Node

/-- Replaces the first node that equals the target. -/
def substitute (root target replacement : Node) : Except SubstitutionError Node :=
  if target.category ≠ replacement.category then
    .error (.malformedReplacement target.category replacement.category)
  else
    match (pathTo? target root).bind (root.replace? · replacement) with
    | some result => .ok result
    | none => .error (.notFound target.kind target.span)

/-- The node of a kind with a span, which must be there. -/
def locate (root : Node) (span : Span) (kind : Kind) : Except SubstitutionError Node :=
  match root.findSpan? span kind with
  | some target => .ok target
  | none => .error (.notFound kind span)

/-- Locates the node that a replacement is meant for and replaces it. -/
def applyReplacement (root : Node) (r : Replacement) : Except SubstitutionError Node := do
  root.substitute (← root.locate r.span r.kind) r.node

/-- The start of the first replacement that begins before its predecessor ends. -/
def overlapOffset? : List Replacement → Option UInt32
  | r :: s :: rest => if s.span.start < r.span.stop then some s.span.start
    else overlapOffset? (s :: rest)
  | _ => none

/-- Applies a batch in the order of spans, each replacement located in the tree that the one before
it has left. -/
def applyReplacements (root : Node) (rs : List Replacement) : Except SubstitutionError Node :=
  let sorted := rs.mergeSort fun r s => r.span.le s.span
  match overlapOffset? sorted with
  | some offset => .error (.overlapping offset)
  | none => sorted.foldlM applyReplacement root

end Node

end TreeLint
