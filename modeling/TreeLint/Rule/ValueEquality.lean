import TreeLint.Rule.Basic

namespace TreeLint.ValueEquality

def ruleId : String := "NullEqualityAnalyzer"

def check (oracle : TypeOracle) (n : Node) : Option Span :=
  match n.shape with
  | .binary op left right =>
    if (op = .equals ∨ op = .notEquals) ∧ (oracle left).isValueType ∧ (oracle right).isValueType then
      some n.span
    else
      none
  | _ => none

/-- The pattern that stands for comparing with the right operand. -/
def patternFor? (op : Operator) (right : Node) : Option Node :=
  let constant : Node := ⟨right.span, .constantPattern right⟩
  match op with
  | .equals => some constant
  | .notEquals => some ⟨right.span, .notPattern constant⟩
  | _ => none

/-- The fix turns `a == b` into `a is b`, and `a != b` into `a is not b`. -/
def synthesize (n : Node) : Except RuleError Node :=
  match n.shape with
  | .binary op left right =>
    match patternFor? op right with
    | some pattern => .ok ⟨n.span, .isPattern left pattern⟩
    | none =>
      .error (.unsupportedShape ruleId n.span "only == and != comparisons can become patterns")
  | _ => .error (.unexpectedNode ruleId .binary n.kind)

def rule : Rule where
  id := ruleId
  title := "Equality comparison on a value type"
  message := "Comparing with == or != where a pattern would do"
  description := "Use `is` / `is not` patterns instead of == / != on value types"
  category := .usage
  severity := .warning
  targetKind := .binary
  check := check
  synthesize := synthesize

end TreeLint.ValueEquality
