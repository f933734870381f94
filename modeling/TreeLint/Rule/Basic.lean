import TreeLint.Syntax.Substitution
import TreeLint.TypeTable

namespace TreeLint

inductive RuleCategory where
  | usage | design
deriving DecidableEq, Repr

namespace RuleCategory

def name : RuleCategory → String
  | usage => "Usage"
  | design => "Design"

def label : RuleCategory → String
  | usage => "usage"
  | design => "design"

end RuleCategory

inductive Severity where
  | info | warning | error
deriving DecidableEq, Repr

namespace Severity

def label : Severity → String
  | info => "info"
  | warning => "warning"
  | error => "error"

def all : List Severity := [info, warning, error]

def ofLabel? (label : String) : Option Severity :=
  all.find? fun s => s.label == label

end Severity

structure Finding where
  ruleId : String
  span : Span
  message : String
  severity : Severity
deriving DecidableEq, Repr

/-- Why a rule has no replacement for a node. -/
inductive RuleError where
  | unsupportedShape (rule : String) (span : Span) (reason : String)
  | unexpectedNode (rule : String) (expected found : Kind)
  | substitution (cause : SubstitutionError)
deriving DecidableEq, Repr

def RuleError.message : RuleError → String
  | unsupportedShape rule span reason =>
    rule ++ ": cannot fix node at " ++ toString span ++ ": " ++ reason
  | unexpectedNode rule expected found =>
    rule ++ ": expected a " ++ expected.name ++ " node, got " ++ found.name
  | substitution cause => cause.message

/-- A lint rule. `check` gives the span to report for a node that violates the rule, `synthesize`
the node to put in its place. -/
structure Rule where
  id : String
  title : String
  message : String
  description : String
  category : RuleCategory
  severity : Severity
  targetKind : Kind
  check : TypeOracle → Node → Option Span
  synthesize : Node → Except RuleError Node

namespace Rule

def findingAt (rule : Rule) (span : Span) : Finding :=
  ⟨rule.id, span, rule.message, rule.severity⟩

/-- The findings of a rule in a tree, in pre-order. -/
def scan (rule : Rule) (oracle : TypeOracle) (root : Node) : List Finding :=
  ((Walk.ofNode root).toList.filter fun n => n.kind == rule.targetKind).filterMap fun n =>
    (rule.check oracle n).map rule.findingAt

end Rule

/-- The data of a custom rule. Without a span it reports the node's own span, and without a
replacement it has no fix. -/
structure CustomRule where
  id : String
  kind : Kind
  severity : Severity
  span : Option Span
  replacement : Option Node
deriving DecidableEq, Repr

def CustomRule.rule (r : CustomRule) : Rule where
  id := r.id
  title := "custom title"
  message := "custom message"
  description := "custom description"
  category := .usage
  severity := r.severity
  targetKind := r.kind
  check := fun _ n => some (r.span.getD n.span)
  synthesize := fun n =>
    match r.replacement with
    | some node => .ok node
    | none => .error (.unsupportedShape r.id n.span "custom rule has no fix")

end TreeLint
