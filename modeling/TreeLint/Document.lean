import TreeLint.Codec.Facts
import TreeLint.Fixing
import TreeLint.Json.Parse
import TreeLint.Json.Print
import TreeLint.Syntax.Nesting
import TreeLint.Syntax.Rendering

namespace TreeLint

open Codec

/-- A syntax tree together with its type facts. -/
structure Document where
  tree : Node
  types : TypeTable
deriving DecidableEq, Repr

namespace Document

/-- How many arrays and objects may be around a value inside the tree of a document, the document
itself being one of them. -/
def maxDepth : Nat := 127

def ofJson? (j : Json) : Option Document := do
  let r ← record? ["tree", "types"] j
  let stored ← r.required? "tree"
  guard (stored.depth < maxDepth ∧ stored.isLegible)
  let tree ← Node.ofJson? stored
  match r.lookup "types" with
  | some types => return ⟨tree, ← TypeTable.ofJson? .text types⟩
  | none => return ⟨tree, .empty⟩

def toJson (d : Document) : Json :=
  .object [("tree", d.tree.toJson), ("types", d.types.toJson)]

/-- Reads the text of a document. -/
def parse? (text : String) : Option Document := do ofJson? (← Json.parse? text)

def print (d : Document) : String := d.toJson.pretty

end Document

/-- A finding, and why it could not be fixed if that was so. -/
structure ReviewedFinding where
  finding : Finding
  unfixable : Option String
deriving DecidableEq, Repr

def ReviewedFinding.toJson (r : ReviewedFinding) : Json :=
  .object ([("rule", .string r.finding.ruleId), ("start", .int r.finding.span.start.toNat),
    ("end", .int r.finding.span.stop.toNat), ("severity", .string r.finding.severity.label),
    ("message", .string r.finding.message)] ++
    (r.unfixable.map fun reason => ("unfixable", Json.string reason)).toList)

/-- What a review of a document found: the findings in its tree, the tree rendered before and after
fixing, and the fixed document if anything was fixed. -/
structure Review where
  findings : List ReviewedFinding
  before : String
  after : String
  fixed : Option Document
deriving DecidableEq, Repr

inductive ReviewError where
  | malformed (violation : SpanViolation)
  | fixing (cause : FixError)
deriving DecidableEq, Repr

def ReviewError.message : ReviewError → String
  | malformed violation => "Malformed syntax tree: " ++ violation.message
  | fixing cause => "Failed to apply fixes: " ++ cause.message

/-- A finding with the reason of its first failure among these. -/
def Finding.reviewed (failed : List (Finding × RuleError)) (f : Finding) : ReviewedFinding :=
  ⟨f, (failed.lookup f).map RuleError.message⟩

/-- Checks the spans of a document, reports its findings and fixes those that can be fixed. -/
def Document.review (registry : Registry) (d : Document) : Except ReviewError Review :=
  match d.tree.spanViolation? with
  | some violation => .error (.malformed violation)
  | none =>
    let before := d.tree.render
    match registry.report d.types.oracle d.tree with
    | [] => .ok ⟨[], before, before, none⟩
    | findings =>
      match registry.fixAll d.types.oracle d.tree with
      | .error cause => .error (.fixing cause)
      | .ok outcome => .ok {
          findings := findings.map (Finding.reviewed outcome.failed)
          before := before
          after := outcome.tree.render
          fixed := if outcome.applied.isEmpty then none else some ⟨outcome.tree, d.types⟩ }

end TreeLint
