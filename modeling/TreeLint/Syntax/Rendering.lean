import TreeLint.Syntax.Node
import TreeLint.Text.Unprintable

namespace TreeLint

namespace Text

def escapeLiteral (c : Char) : List Char :=
  if c = '"' then ['\\', '"']
  else if c = '\\' then ['\\', '\\']
  else if c = '\n' then ['\\', 'n']
  else if c = '\r' then ['\\', 'r']
  else if c = '\t' then ['\\', 't']
  else if c.toNat = 0 then ['\\', '0']
  else if isUnprintable c then
    '\\' :: 'u' :: '\x7b' :: (Nat.toDigits 16 c.toNat ++ ['\x7d'])
  else [c]

/-- A text in double quotes, with escapes for the quote, the backslash and every character that
would not show. -/
def quoted (text : String) : String :=
  String.ofList ('"' :: (text.toList.flatMap escapeLiteral ++ ['"']))

end Text

def LiteralValue.render : LiteralValue → String
  | null => "null"
  | default => "default"
  | bool value => if value then "true" else "false"
  | int value => toString value.toInt
  | string value => Text.quoted value

/-- The text of a rendered node and whether it needs parentheses as an operand. -/
structure Rendered where
  text : String
  isCompound : Bool

namespace Rendered

def operand (r : Rendered) : String :=
  if r.isCompound then "(" ++ r.text ++ ")" else r.text

def join (separator : String) (rs : List Rendered) : String :=
  separator.intercalate (rs.map text)

def braced : List Rendered → String
  | [] => "\x7b \x7d"
  | rs => "\x7b " ++ join " " rs ++ " \x7d"

end Rendered

def renderModifiers (modifiers : List Modifier) : String :=
  String.join (modifiers.map fun m => m.keyword ++ " ")

open Rendered in
def Shape.render : Shape Rendered → String
  | .compilationUnit members => join " " members
  | .namespaceDecl name members => "namespace " ++ name ++ " " ++ braced members
  | .classDecl modifiers name members =>
    renderModifiers modifiers ++ "class " ++ name ++ " " ++ braced members
  | .methodDecl modifiers returnType name parameters body =>
    renderModifiers modifiers ++ returnType.text ++ " " ++ name ++ "(" ++ join ", " parameters ++
      ") " ++ body.text
  | .parameter modifier type name =>
    (match modifier with
      | some m => m.keyword ++ " "
      | none => "") ++ type.text ++ " " ++ name
  | .typeRef name => name.render
  | .block statements => braced statements
  | .ifStmt condition thenBranch elseBranch =>
    "if (" ++ condition.text ++ ") " ++ thenBranch.text ++
      (match elseBranch with
        | some e => " else " ++ e.text
        | none => "")
  | .returnStmt (some value) => "return " ++ value.text ++ ";"
  | .returnStmt none => "return;"
  | .exprStmt expression => expression.text ++ ";"
  | .localDecl type name initializer =>
    type.text ++ " " ++ name ++
      (match initializer with
        | some i => " = " ++ i.text
        | none => "") ++ ";"
  | .tryStmt body catches finalizer =>
    "try " ++ body.text ++ String.join (catches.map fun c => " " ++ c.text) ++
      (match finalizer with
        | some f => " finally " ++ f.text
        | none => "")
  | .catchClause exceptionType name body =>
    "catch " ++
      (match exceptionType, name with
        | some t, some n => "(" ++ t.text ++ " " ++ n ++ ") "
        | some t, none => "(" ++ t.text ++ ") "
        | none, _ => "") ++ body.text
  | .binary operator left right =>
    left.operand ++ " " ++ operator.symbol ++ " " ++ right.operand
  | .isPattern expression pattern => expression.operand ++ " is " ++ pattern.text
  | .constantPattern value => value.operand
  | .notPattern pattern => "not " ++ pattern.text
  | .assignment target value => target.text ++ " = " ++ value.text
  | .objectCreation type arguments => "new " ++ type.text ++ "(" ++ join ", " arguments ++ ")"
  | .invocation callee arguments => callee.text ++ "(" ++ join ", " arguments ++ ")"
  | .memberAccess target member => target.text ++ "." ++ member
  | .identifier name => name
  | .literal value => value.render

/-- The kinds of expression that are parenthesised as operands. -/
def Kind.isCompound : Kind → Bool
  | .binary | .isPattern => true
  | _ => false

namespace Node

def rendered (n : Node) : Rendered :=
  n.fold fun _ s => ⟨s.render, s.kind.isCompound⟩

def render (n : Node) : String := n.rendered.text

end Node

end TreeLint
