import TreeLint.Syntax.Walk

namespace TreeLint

/-- One way for the spans of a tree not to nest. -/
inductive SpanViolation where
  | inverted (kind : Kind) (span : Span)
  | escapes (parent : Kind) (parentSpan : Span) (child : Kind) (childSpan : Span)
  | overlap (first : Kind) (firstSpan : Span) (second : Kind) (secondSpan : Span)
deriving DecidableEq, Repr

def SpanViolation.message : SpanViolation → String
  | inverted kind span => kind.name ++ " has an inverted span " ++ toString span
  | escapes parent parentSpan child childSpan =>
    child.name ++ " at " ++ toString childSpan ++ " escapes its parent " ++ parent.name ++ " at " ++
      toString parentSpan
  | overlap first firstSpan second secondSpan =>
    first.name ++ " at " ++ toString firstSpan ++ " overlaps its sibling " ++ second.name ++
      " at " ++ toString secondSpan

namespace Node

/-- The first violation among siblings under a parent, each tested against the parent and then
against the next sibling. -/
def siblingViolation? (parent : Node) : List Node → Option SpanViolation
  | [] => none
  | child :: rest =>
    if !parent.span.contains child.span then
      some (.escapes parent.kind parent.span child.kind child.span)
    else
      match rest with
      | next :: _ =>
        if child.span.overlaps next.span then
          some (.overlap child.kind child.span next.kind next.span)
        else
          siblingViolation? parent rest
      | [] => none

/-- The first violation at a node itself, its children's own children left aside. -/
def violation? (n : Node) : Option SpanViolation :=
  if n.span.stop < n.span.start then
    some (.inverted n.kind n.span)
  else
    n.siblingViolation? n.children

/-- The first violation in a tree, nodes taken in pre-order. -/
def spanViolation? (root : Node) : Option SpanViolation :=
  (Walk.ofNode root).toList.findSome? violation?

end Node

end TreeLint
