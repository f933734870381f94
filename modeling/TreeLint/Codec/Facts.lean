import TreeLint.Codec.Tree
import TreeLint.Rule.Basic

namespace TreeLint

open Codec

namespace TypeFact

def toJson : TypeFact → Json
  | known isValueType => .object [("known", .object [("is_value_type", .bool isValueType)])]
  | unknown => .string "unknown"

def ofJson? (medium : Medium) (j : Json) : Option TypeFact :=
  match variant? j with
  | some ("known", some payload) => do
    let r ← payload? medium ["is_value_type"] payload
    return .known (← bool? (← r.required? "is_value_type"))
  | _ => do
    guard ((← plainTag? j) = "unknown")
    return .unknown

end TypeFact

namespace TypeEntry

def toJson (e : TypeEntry) : Json :=
  .object [("span", e.span.toJson), ("fact", e.fact.toJson)]

def ofJson? (medium : Medium) (j : Json) : Option TypeEntry := do
  let r ← record? ["span", "fact"] j
  return ⟨← Span.ofJson? (← r.required? "span"),
    ← TypeFact.ofJson? medium (← r.required? "fact")⟩

end TypeEntry

namespace TypeTable

def toJson (t : TypeTable) : Json := .array (t.entries.map TypeEntry.toJson)

def ofJson? (medium : Medium) (j : Json) : Option TypeTable := do
  return ofEntries (← (← items? j).mapM (TypeEntry.ofJson? medium))

end TypeTable

def Severity.ofJson? (j : Json) : Option Severity := do ofLabel? (← plainTag? j)

namespace Finding

def toJson (f : Finding) : Json :=
  .object [("rule_id", .string f.ruleId), ("span", f.span.toJson), ("message", .string f.message),
    ("severity", .string f.severity.label)]

def ofJson? (j : Json) : Option Finding := do
  let r ← record? ["rule_id", "span", "message", "severity"] j
  return {
    ruleId := ← r.string? "rule_id"
    span := ← Span.ofJson? (← r.required? "span")
    message := ← r.string? "message"
    severity := ← Severity.ofJson? (← r.required? "severity") }

end Finding

end TreeLint
