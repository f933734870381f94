import TreeLint.Codec.Basic
import TreeLint.Syntax.Node

namespace TreeLint

open Codec

namespace Span

def toJson (s : Span) : Json :=
  .object [("start", .int s.start.toNat), ("end", .int s.stop.toNat)]

def ofJson? (j : Json) : Option Span := do
  let r ← record? ["start", "end"] j
  return ⟨← offset? (← r.required? "start"), ← offset? (← r.required? "end")⟩

end Span

namespace Codec

/-- The tag of an enumeration value inside a tree, where an empty object may also stand for the
nothing that goes with it. -/
def treeTag? (j : Json) : Option String :=
  match variant? j with
  | some (tag, some (.object [])) => some tag
  | _ => plainTag? j

def modifier? (j : Json) : Option Modifier := do Modifier.ofKeyword? (← treeTag? j)

def parameterModifier? (j : Json) : Option ParameterModifier := do
  ParameterModifier.ofKeyword? (← treeTag? j)

def operator? (j : Json) : Option Operator := do Operator.ofTag? (← treeTag? j)

/-- Reads a type name that is nested in at most so many others. -/
def typeNameWithin? : Nat → Json → Option TypeName
  | 0, _ => none
  | n + 1, j =>
    match variant? j with
    | some ("predefined", some payload) => do
      return .predefined (← PredefinedType.ofKeyword? (← treeTag? payload))
    | some ("named", some payload) => (string? payload).map .named
    | some ("nullable", some payload) => (typeNameWithin? n payload).map .nullable
    | _ => none

def typeName? (j : Json) : Option TypeName := typeNameWithin? (j.depth + 1) j

def literalValue? (j : Json) : Option LiteralValue :=
  match variant? j with
  | some ("bool", some payload) => (bool? payload).map .bool
  | some ("int", some payload) => (int64? payload).map .int
  | some ("string", some payload) => (string? payload).map .string
  | _ =>
    match treeTag? j with
    | some "null" => some .null
    | some "default" => some .default
    | _ => none

end Codec

def TypeName.toJson : TypeName → Json
  | predefined type => .object [("predefined", .string type.keyword)]
  | named name => .object [("named", .string name)]
  | nullable inner => .object [("nullable", inner.toJson)]

def LiteralValue.toJson : LiteralValue → Json
  | null => .string "null"
  | default => .string "default"
  | bool value => .object [("bool", .bool value)]
  | int value => .object [("int", .int value.toInt)]
  | string value => .object [("string", .string value)]

def Kind.fieldNames : Kind → List String
  | compilationUnit => ["members"]
  | namespaceDecl => ["name", "members"]
  | classDecl => ["modifiers", "name", "members"]
  | methodDecl => ["modifiers", "return_type", "name", "parameters", "body"]
  | parameter => ["modifier", "ty", "name"]
  | typeRef => ["name"]
  | block => ["statements"]
  | ifStmt => ["condition", "then_branch", "else_branch"]
  | returnStmt => ["value"]
  | exprStmt => ["expression"]
  | localDecl => ["ty", "name", "initializer"]
  | tryStmt => ["block", "catches", "finally"]
  | catchClause => ["exception_type", "identifier", "block"]
  | binary => ["operator", "left", "right"]
  | isPattern => ["expression", "pattern"]
  | constantPattern => ["value"]
  | notPattern => ["pattern"]
  | assignment => ["target", "value"]
  | objectCreation => ["ty", "arguments"]
  | invocation => ["callee", "arguments"]
  | memberAccess => ["target", "member"]
  | identifier => ["name"]
  | literal => ["value"]

namespace Shape

def modifiersJson (modifiers : List Modifier) : Json :=
  .array (modifiers.map fun m => .string m.keyword)

/-- The values of the fields of a shape, in order, given its children written. An empty list is
written as `[]`, and a missing child as `null`. -/
def fieldValues : Shape Json → List Json
  | compilationUnit members => [.array members]
  | namespaceDecl name members => [.string name, .array members]
  | classDecl modifiers name members => [modifiersJson modifiers, .string name, .array members]
  | methodDecl modifiers returnType name parameters body =>
    [modifiersJson modifiers, returnType, .string name, .array parameters, body]
  | parameter modifier type name =>
    [(modifier.map fun m => Json.string m.keyword).getD .null, type, .string name]
  | typeRef name => [name.toJson]
  | block statements => [.array statements]
  | ifStmt condition thenBranch elseBranch => [condition, thenBranch, elseBranch.getD .null]
  | returnStmt value => [value.getD .null]
  | exprStmt expression => [expression]
  | localDecl type name initializer => [type, .string name, initializer.getD .null]
  | tryStmt body catches finalizer => [body, .array catches, finalizer.getD .null]
  | catchClause exceptionType name body =>
    [exceptionType.getD .null, (name.map Json.string).getD .null, body]
  | binary operator left right => [.string operator.tag, left, right]
  | isPattern expression pattern => [expression, pattern]
  | constantPattern value => [value]
  | notPattern pattern => [pattern]
  | assignment target value => [target, value]
  | objectCreation type arguments => [type, .array arguments]
  | invocation callee arguments => [callee, .array arguments]
  | memberAccess target member => [target, .string member]
  | identifier name => [.string name]
  | literal value => [value.toJson]

def modifiers? (r : Record) : Option (List Modifier) := do
  (← r.itemsOrNone? "modifiers").mapM modifier?

/-- The shape of a node with these fields, its children yet to be read. -/
def ofRecord? (r : Record) : Kind → Option (Shape Json)
  | .compilationUnit => return compilationUnit (← r.items? "members")
  | .namespaceDecl => return namespaceDecl (← r.string? "name") (← r.items? "members")
  | .classDecl =>
    return classDecl (← modifiers? r) (← r.string? "name") (← r.items? "members")
  | .methodDecl =>
    return methodDecl (← modifiers? r) (← r.required? "return_type") (← r.string? "name")
      (← r.itemsOrNone? "parameters") (← r.required? "body")
  | .parameter =>
    return parameter (← (r.optional "modifier").mapM parameterModifier?) (← r.required? "ty")
      (← r.string? "name")
  | .typeRef => return typeRef (← typeName? (← r.required? "name"))
  | .block => return block (← r.itemsOrNone? "statements")
  | .ifStmt =>
    return ifStmt (← r.required? "condition") (← r.required? "then_branch")
      (r.optional "else_branch")
  | .returnStmt => return returnStmt (r.optional "value")
  | .exprStmt => return exprStmt (← r.required? "expression")
  | .localDecl =>
    return localDecl (← r.required? "ty") (← r.string? "name") (r.optional "initializer")
  | .tryStmt =>
    return tryStmt (← r.required? "block") (← r.itemsOrNone? "catches") (r.optional "finally")
  | .catchClause =>
    return catchClause (r.optional "exception_type") (← (r.optional "identifier").mapM string?)
      (← r.required? "block")
  | .binary =>
    return binary (← operator? (← r.required? "operator")) (← r.required? "left")
      (← r.required? "right")
  | .isPattern => return isPattern (← r.required? "expression") (← r.required? "pattern")
  | .constantPattern => return constantPattern (← r.required? "value")
  | .notPattern => return notPattern (← r.required? "pattern")
  | .assignment => return assignment (← r.required? "target") (← r.required? "value")
  | .objectCreation =>
    return objectCreation (← r.required? "ty") (← r.itemsOrNone? "arguments")
  | .invocation => return invocation (← r.required? "callee") (← r.itemsOrNone? "arguments")
  | .memberAccess => return memberAccess (← r.required? "target") (← r.string? "member")
  | .identifier => return identifier (← r.string? "name")
  | .literal => return literal (← literalValue? (← r.required? "value"))

end Shape

namespace Node

/-- The stored form of a node, given its children written. -/
def record (span : Span) (s : Shape Json) : Json :=
  .object (("kind", .string s.kind.tag) :: ("span", span.toJson) ::
    s.kind.fieldNames.zip s.fieldValues)

def toJson (n : Node) : Json := n.fold record

def taggedKind? : Json → Option Kind
  | .string tag => Kind.ofTag? tag
  | _ => none

/-- The kind that a tag stands for, or the place of a kind in the list of all. -/
def innerKind? : Json → Option Kind
  | .int index => if 0 ≤ index then Kind.ofIndex? index.toNat else none
  | j => taggedKind? j

/-- What stands in a stored node for its kind. -/
def storedKind? : Json → Option Json
  | .object fields => fields.lookup "kind"
  | .array items => items.head?
  | _ => none

/-- Reads a tree with at most so many nodes on a path. Only below the first node may a kind be given
by its place. -/
def ofJsonWithin? (readKind? : Json → Option Kind) : Nat → Json → Option Node
  | 0, _ => none
  | n + 1, j => do
    let kind ← readKind? (← storedKind? j)
    let r ← record? ("kind" :: "span" :: kind.fieldNames) j
    let span ← Span.ofJson? (← r.required? "span")
    let shape ← Shape.ofRecord? r kind
    return ⟨span, ← shape.mapM? (ofJsonWithin? innerKind? n)⟩

def ofJson? (j : Json) : Option Node := ofJsonWithin? taggedKind? (j.depth + 1) j

end Node

end TreeLint
