namespace TreeLint

inductive Modifier where
  | «public» | «private» | «protected» | internal | static | async | virtual | override | abstract
  | sealed | readonly
deriving DecidableEq, Repr, Inhabited

namespace Modifier

def all : List Modifier :=
  [«public», «private», «protected», internal, static, async, virtual, override, abstract,
    sealed, readonly]

def keyword : Modifier → String
  | «public» => "public"
  | «private» => "private"
  | «protected» => "protected"
  | internal => "internal"
  | static => "static"
  | async => "async"
  | virtual => "virtual"
  | override => "override"
  | abstract => "abstract"
  | sealed => "sealed"
  | readonly => "readonly"

def ofKeyword? (word : String) : Option Modifier :=
  all.find? fun m => m.keyword == word

@[simp]
theorem ofKeyword?_keyword (m : Modifier) : ofKeyword? m.keyword = some m := by
  cases m <;> rfl

end Modifier

inductive ParameterModifier where
  | out | ref | «in» | params
deriving DecidableEq, Repr, Inhabited

namespace ParameterModifier

def all : List ParameterModifier := [out, ref, «in», params]

def keyword : ParameterModifier → String
  | out => "out"
  | ref => "ref"
  | «in» => "in"
  | params => "params"

def ofKeyword? (word : String) : Option ParameterModifier :=
  all.find? fun m => m.keyword == word

@[simp]
theorem ofKeyword?_keyword (m : ParameterModifier) : ofKeyword? m.keyword = some m := by
  cases m <;> rfl

end ParameterModifier

/-- A type that is spelled with a keyword. -/
inductive PredefinedType where
  | bool | byte | char | decimal | double | float | int | long | object | short | string | void
deriving DecidableEq, Repr, Inhabited

namespace PredefinedType

def all : List PredefinedType :=
  [bool, byte, char, decimal, double, float, int, long, object, short, string, void]

def keyword : PredefinedType → String
  | bool => "bool"
  | byte => "byte"
  | char => "char"
  | decimal => "decimal"
  | double => "double"
  | float => "float"
  | int => "int"
  | long => "long"
  | object => "object"
  | short => "short"
  | string => "string"
  | void => "void"

def ofKeyword? (word : String) : Option PredefinedType :=
  all.find? fun t => t.keyword == word

@[simp]
theorem ofKeyword?_keyword (t : PredefinedType) : ofKeyword? t.keyword = some t := by
  cases t <;> rfl

end PredefinedType

/-- The name of a type as the source spells it. -/
inductive TypeName where
  | predefined (type : PredefinedType)
  | named (name : String)
  | nullable (inner : TypeName)
deriving DecidableEq, Repr, Inhabited

def TypeName.render : TypeName → String
  | predefined type => type.keyword
  | named name => name
  | nullable inner => inner.render ++ "?"

inductive Operator where
  | equals | notEquals | lessThan | lessThanOrEqual | greaterThan | greaterThanOrEqual
  | add | subtract | multiply | divide | logicalAnd | logicalOr
deriving DecidableEq, Repr, Inhabited

namespace Operator

def all : List Operator :=
  [equals, notEquals, lessThan, lessThanOrEqual, greaterThan, greaterThanOrEqual, add, subtract,
    multiply, divide, logicalAnd, logicalOr]

def symbol : Operator → String
  | equals => "=="
  | notEquals => "!="
  | lessThan => "<"
  | lessThanOrEqual => "<="
  | greaterThan => ">"
  | greaterThanOrEqual => ">="
  | add => "+"
  | subtract => "-"
  | multiply => "*"
  | divide => "/"
  | logicalAnd => "&&"
  | logicalOr => "||"

def tag : Operator → String
  | equals => "equals"
  | notEquals => "not_equals"
  | lessThan => "less_than"
  | lessThanOrEqual => "less_than_or_equal"
  | greaterThan => "greater_than"
  | greaterThanOrEqual => "greater_than_or_equal"
  | add => "add"
  | subtract => "subtract"
  | multiply => "multiply"
  | divide => "divide"
  | logicalAnd => "logical_and"
  | logicalOr => "logical_or"

def ofTag? (tag : String) : Option Operator :=
  all.find? fun op => op.tag == tag

@[simp]
theorem ofTag?_tag (op : Operator) : ofTag? op.tag = some op := by
  cases op <;> rfl

end Operator

/-- The value of a literal expression. An integer is a signed 64-bit number. -/
inductive LiteralValue where
  | null
  | default
  | bool (value : Bool)
  | int (value : Int64)
  | string (value : String)
deriving DecidableEq, Repr, Inhabited

end TreeLint
