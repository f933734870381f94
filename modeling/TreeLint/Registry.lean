import TreeLint.Rule.TryMethod
import TreeLint.Rule.ValueEquality

namespace TreeLint

/-- Rules in the order of their reports. The first of several rules with one id is the one that the
id stands for. -/
structure Registry where
  rules : List Rule

namespace Registry

def builtin : Registry := ⟨[ValueEquality.rule, TryMethod.rule]⟩

/-- The built-in rules with one of these ids. -/
def enabling (ids : List String) : Registry :=
  ⟨builtin.rules.filter fun r => ids.contains r.id⟩

def ids (registry : Registry) : List String := registry.rules.map Rule.id

def find? (registry : Registry) (id : String) : Option Rule :=
  registry.rules.find? fun r => r.id == id

/-- The findings of all rules in a tree, rule by rule. -/
def report (registry : Registry) (oracle : TypeOracle) (root : Node) : List Finding :=
  registry.rules.flatMap fun r => r.scan oracle root

end Registry

end TreeLint
