namespace TreeLint

/-- The grammar production that a node stands for. -/
inductive Kind where
  | compilationUnit | namespaceDecl | classDecl | methodDecl | parameter | typeRef | block
  | ifStmt | returnStmt | exprStmt | localDecl | tryStmt | catchClause | binary | isPattern
  | constantPattern | notPattern | assignment | objectCreation | invocation | memberAccess
  | identifier | literal
deriving DecidableEq, Repr, Inhabited

/-- What a slot of a tree holds. A node is replaced only by a node of its own category. -/
inductive Category where
  | unit | member | parameter | type | statement | clause | expression | pattern
deriving DecidableEq, Repr, Inhabited

namespace Category

def name : Category → String
  | unit => "Unit"
  | member => "Member"
  | parameter => "Parameter"
  | type => "Type"
  | statement => "Statement"
  | clause => "Clause"
  | expression => "Expression"
  | pattern => "Pattern"

end Category

namespace Kind

def all : List Kind :=
  [compilationUnit, namespaceDecl, classDecl, methodDecl, parameter, typeRef, block, ifStmt,
    returnStmt, exprStmt, localDecl, tryStmt, catchClause, binary, isPattern, constantPattern,
    notPattern, assignment, objectCreation, invocation, memberAccess, identifier, literal]

def category : Kind → Category
  | compilationUnit => .unit
  | namespaceDecl | classDecl | methodDecl => .member
  | parameter => .parameter
  | typeRef => .type
  | block | ifStmt | returnStmt | exprStmt | localDecl | tryStmt => .statement
  | catchClause => .clause
  | constantPattern | notPattern => .pattern
  | binary | isPattern | assignment | objectCreation | invocation | memberAccess | identifier
  | literal => .expression

/-- The name of a kind in messages. -/
def name : Kind → String
  | compilationUnit => "CompilationUnit"
  | namespaceDecl => "Namespace"
  | classDecl => "Class"
  | methodDecl => "Method"
  | parameter => "Parameter"
  | typeRef => "Type"
  | block => "Block"
  | ifStmt => "If"
  | returnStmt => "Return"
  | exprStmt => "ExpressionStatement"
  | localDecl => "LocalDeclaration"
  | tryStmt => "Try"
  | catchClause => "Catch"
  | binary => "Binary"
  | isPattern => "IsPattern"
  | constantPattern => "ConstantPattern"
  | notPattern => "NotPattern"
  | assignment => "Assignment"
  | objectCreation => "ObjectCreation"
  | invocation => "Invocation"
  | memberAccess => "MemberAccess"
  | identifier => "Identifier"
  | literal => "Literal"

def tag : Kind → String
  | compilationUnit => "compilation_unit"
  | namespaceDecl => "namespace"
  | classDecl => "class"
  | methodDecl => "method"
  | parameter => "parameter"
  | typeRef => "type"
  | block => "block"
  | ifStmt => "if"
  | returnStmt => "return"
  | exprStmt => "expression_statement"
  | localDecl => "local_declaration"
  | tryStmt => "try"
  | catchClause => "catch"
  | binary => "binary"
  | isPattern => "is_pattern"
  | constantPattern => "constant_pattern"
  | notPattern => "not_pattern"
  | assignment => "assignment"
  | objectCreation => "object_creation"
  | invocation => "invocation"
  | memberAccess => "member_access"
  | identifier => "identifier"
  | literal => "literal"

def ofName? (name : String) : Option Kind :=
  all.find? fun k => k.name == name

def ofTag? (tag : String) : Option Kind :=
  all.find? fun k => k.tag == tag

def ofIndex? (index : Nat) : Option Kind := all[index]?

@[simp]
theorem ofTag?_tag (k : Kind) : ofTag? k.tag = some k := by
  cases k <;> rfl

@[simp]
theorem ofName?_name (k : Kind) : ofName? k.name = some k := by
  cases k <;> rfl

end Kind

end TreeLint
