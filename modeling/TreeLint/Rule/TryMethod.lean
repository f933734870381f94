import TreeLint.Rule.Basic

namespace TreeLint.TryMethod

def ruleId : String := "TryReturnTypeAnalyzer"

/-- The name of the parameter that hands the result out. -/
def outName : String := "value"

def returnsBool (returnType : Node) : Bool :=
  match returnType.shape with
  | .typeRef (.predefined .bool) => true
  | _ => false

def check (_ : TypeOracle) (n : Node) : Option Span :=
  match n.shape with
  | .methodDecl _ returnType name _ _ =>
    if "Try".toList.isPrefixOf name.toList ∧ ¬ returnsBool returnType then some n.span else none
  | _ => none

def unsupported (span : Span) (reason : String) : RuleError :=
  .unsupportedShape ruleId span reason

/-- `value = e;` in the place of the `return e;` with this span. -/
def assignment (span : Span) : Option Node → Except RuleError Node
  | some value =>
    .ok ⟨span, .exprStmt
      ⟨span, .assignment ⟨.point span.start, .identifier outName⟩ value⟩⟩
  | none => .error (unsupported span "return without a value")

def returned? (n : Node) : Option (Option Node) :=
  match n.shape with
  | .returnStmt value => some value
  | _ => none

/-- The return that is replaced in an `if` with this then-branch, and what it returns. -/
def finalReturn? (thenBranch : Node) : Option (Node × Option Node) :=
  match thenBranch.shape with
  | .block statements => statements.reverse.findSome? fun s => (returned? s).map (s, ·)
  | .returnStmt value => some (thenBranch, value)
  | _ => none

def fixIf (statement thenBranch : Node) : Except RuleError Node :=
  match finalReturn? thenBranch with
  | some (target, value) => do
    (statement.substitute target (← assignment target.span value)).mapError .substitution
  | none => .ok statement

def fixStatement (statement : Node) : Except RuleError Node :=
  match statement.shape with
  | .returnStmt value => assignment statement.span value
  | .ifStmt _ thenBranch _ => fixIf statement thenBranch
  | _ => .ok statement

def returnBool (place : Span) (value : Bool) : Node :=
  ⟨place, .returnStmt (some ⟨place, .literal (.bool value)⟩)⟩

/-- `value = default;` -/
def initialization (place : Span) : Node :=
  ⟨place, .exprStmt ⟨place, .assignment ⟨place, .identifier outName⟩ ⟨place, .literal .default⟩⟩⟩

/-- `catch (Exception e) { return false; }` -/
def failureClause (place : Span) : Node :=
  ⟨place, .catchClause (some ⟨place, .typeRef (.named "Exception")⟩) (some "e")
    ⟨place, .block [returnBool place false]⟩⟩

/-- The new body for a block with this span and these statements. -/
def fixBody (span : Span) (statements : List Node) : Except RuleError Node := do
  let start := Span.point span.start
  let stop := Span.point span.stop
  let fixed ← statements.mapM fixStatement
  let guarded : Node := ⟨span, .block (fixed ++ [returnBool stop true])⟩
  return ⟨span, .block
    [initialization start, ⟨span, .tryStmt guarded [failureClause stop] none⟩]⟩

/-- The parameter `out T value`, which has no text of its own yet. -/
def outParameter (place : Span) (type : TypeName) : Node :=
  ⟨place, .parameter (some .out) ⟨place, .typeRef type⟩ outName⟩

/-- Where the new parameter goes: behind the last parameter, or behind the return type. -/
def outOffset (returnType : Node) (parameters : List Node) : UInt32 :=
  match parameters.getLast? with
  | some p => p.span.stop
  | none => returnType.span.stop

/-- The fix turns

    T TryX(ps) { body }

into

    bool TryX(ps, out T value)
    { value = default; try { body; return true; } catch (Exception e) { return false; } }

where each top-level `return e;` of the body becomes `value = e;`. Of the returns of a top-level
`if`, only one is replaced: the then-branch itself, or the last return directly in its block. -/
def synthesize (n : Node) : Except RuleError Node :=
  match n.shape with
  | .methodDecl modifiers returnType name parameters body =>
    match body.shape, returnType.shape with
    | .block statements, .typeRef type => do
      let place := Span.point (outOffset returnType parameters)
      return ⟨n.span, .methodDecl modifiers ⟨returnType.span, .typeRef (.predefined .bool)⟩ name
        (parameters ++ [outParameter place type]) (← fixBody body.span statements)⟩
    | .block _, _ => .error (unsupported n.span "return type is not a type")
    | _, _ => .error (unsupported n.span "method body is not a block")
  | _ => .error (.unexpectedNode ruleId .methodDecl n.kind)

def rule : Rule where
  id := ruleId
  title := "Try method does not return bool"
  message := "Methods named Try* should report success as bool"
  description := "Return bool and pass the result through an out parameter"
  category := .design
  severity := .warning
  targetKind := .methodDecl
  check := check
  synthesize := synthesize

end TreeLint.TryMethod
