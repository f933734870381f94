import TreeLint.Syntax.Kind
import TreeLint.Syntax.Vocabulary

namespace TreeLint

/-- One production of the grammar over children of type `α`. -/
inductive Shape (α : Type) where
  | compilationUnit (members : List α)
  | namespaceDecl (name : String) (members : List α)
  | classDecl (modifiers : List Modifier) (name : String) (members : List α)
  | methodDecl (modifiers : List Modifier) (returnType : α) (name : String) (parameters : List α)
      (body : α)
  | parameter (modifier : Option ParameterModifier) (type : α) (name : String)
  | typeRef (name : TypeName)
  | block (statements : List α)
  | ifStmt (condition thenBranch : α) (elseBranch : Option α)
  | returnStmt (value : Option α)
  | exprStmt (expression : α)
  | localDecl (type : α) (name : String) (initializer : Option α)
  | tryStmt (body : α) (catches : List α) (finalizer : Option α)
  | catchClause (exceptionType : Option α) (identifier : Option String) (body : α)
  | binary (operator : Operator) (left right : α)
  | isPattern (expression pattern : α)
  | constantPattern (value : α)
  | notPattern (pattern : α)
  | assignment (target value : α)
  | objectCreation (type : α) (arguments : List α)
  | invocation (callee : α) (arguments : List α)
  | memberAccess (target : α) (member : String)
  | identifier (name : String)
  | literal (value : LiteralValue)
deriving DecidableEq, Repr

namespace Shape

variable {α β γ : Type}

def kind : Shape α → Kind
  | compilationUnit .. => .compilationUnit
  | namespaceDecl .. => .namespaceDecl
  | classDecl .. => .classDecl
  | methodDecl .. => .methodDecl
  | parameter .. => .parameter
  | typeRef .. => .typeRef
  | block .. => .block
  | ifStmt .. => .ifStmt
  | returnStmt .. => .returnStmt
  | exprStmt .. => .exprStmt
  | localDecl .. => .localDecl
  | tryStmt .. => .tryStmt
  | catchClause .. => .catchClause
  | binary .. => .binary
  | isPattern .. => .isPattern
  | constantPattern .. => .constantPattern
  | notPattern .. => .notPattern
  | assignment .. => .assignment
  | objectCreation .. => .objectCreation
  | invocation .. => .invocation
  | memberAccess .. => .memberAccess
  | identifier .. => .identifier
  | literal .. => .literal

/-- The children in source order. -/
def children : Shape α → List α
  | compilationUnit members => members
  | namespaceDecl _ members => members
  | classDecl _ _ members => members
  | methodDecl _ returnType _ parameters body => returnType :: (parameters ++ [body])
  | parameter _ type _ => [type]
  | typeRef _ => []
  | block statements => statements
  | ifStmt condition thenBranch elseBranch => condition :: thenBranch :: elseBranch.toList
  | returnStmt value => value.toList
  | exprStmt expression => [expression]
  | localDecl type _ initializer => type :: initializer.toList
  | tryStmt body catches finalizer => body :: (catches ++ finalizer.toList)
  | catchClause exceptionType _ body => exceptionType.toList ++ [body]
  | binary _ left right => [left, right]
  | isPattern expression pattern => [expression, pattern]
  | constantPattern value => [value]
  | notPattern pattern => [pattern]
  | assignment target value => [target, value]
  | objectCreation type arguments => type :: arguments
  | invocation callee arguments => callee :: arguments
  | memberAccess target _ => [target]
  | identifier _ => []
  | literal _ => []

/-- Changes every child, given its index among the children. -/
def mapIdx (f : Nat → α → β) : Shape α → Shape β
  | compilationUnit members => compilationUnit (members.mapIdx f)
  | namespaceDecl name members => namespaceDecl name (members.mapIdx f)
  | classDecl modifiers name members => classDecl modifiers name (members.mapIdx f)
  | methodDecl modifiers returnType name parameters body =>
    methodDecl modifiers (f 0 returnType) name (parameters.mapIdx fun i => f (i + 1))
      (f (parameters.length + 1) body)
  | parameter modifier type name => parameter modifier (f 0 type) name
  | typeRef name => typeRef name
  | block statements => block (statements.mapIdx f)
  | ifStmt condition thenBranch elseBranch =>
    ifStmt (f 0 condition) (f 1 thenBranch) (elseBranch.map (f 2))
  | returnStmt value => returnStmt (value.map (f 0))
  | exprStmt expression => exprStmt (f 0 expression)
  | localDecl type name initializer => localDecl (f 0 type) name (initializer.map (f 1))
  | tryStmt body catches finalizer =>
    tryStmt (f 0 body) (catches.mapIdx fun i => f (i + 1))
      (finalizer.map (f (catches.length + 1)))
  | catchClause exceptionType name body =>
    catchClause (exceptionType.map (f 0)) name (f exceptionType.toList.length body)
  | binary operator left right => binary operator (f 0 left) (f 1 right)
  | isPattern expression pattern => isPattern (f 0 expression) (f 1 pattern)
  | constantPattern value => constantPattern (f 0 value)
  | notPattern pattern => notPattern (f 0 pattern)
  | assignment target value => assignment (f 0 target) (f 1 value)
  | objectCreation type arguments =>
    objectCreation (f 0 type) (arguments.mapIdx fun i => f (i + 1))
  | invocation callee arguments => invocation (f 0 callee) (arguments.mapIdx fun i => f (i + 1))
  | memberAccess target member => memberAccess (f 0 target) member
  | identifier name => identifier name
  | literal value => literal value

def map (f : α → β) (s : Shape α) : Shape β := s.mapIdx fun _ => f

/-- What a shape holds besides its children: kind, names, modifiers, operator and value, and which
of its slots are filled. -/
def form (s : Shape α) : Shape Unit := s.map fun _ => ()

/-- Changes every child with a function that may refuse one. -/
def mapM? (f : α → Option β) : Shape α → Option (Shape β)
  | compilationUnit members => return compilationUnit (← members.mapM f)
  | namespaceDecl name members => return namespaceDecl name (← members.mapM f)
  | classDecl modifiers name members => return classDecl modifiers name (← members.mapM f)
  | methodDecl modifiers returnType name parameters body =>
    return methodDecl modifiers (← f returnType) name (← parameters.mapM f) (← f body)
  | parameter modifier type name => return parameter modifier (← f type) name
  | typeRef name => return typeRef name
  | block statements => return block (← statements.mapM f)
  | ifStmt condition thenBranch elseBranch =>
    return ifStmt (← f condition) (← f thenBranch) (← elseBranch.mapM f)
  | returnStmt value => return returnStmt (← value.mapM f)
  | exprStmt expression => return exprStmt (← f expression)
  | localDecl type name initializer => return localDecl (← f type) name (← initializer.mapM f)
  | tryStmt body catches finalizer =>
    return tryStmt (← f body) (← catches.mapM f) (← finalizer.mapM f)
  | catchClause exceptionType name body =>
    return catchClause (← exceptionType.mapM f) name (← f body)
  | binary operator left right => return binary operator (← f left) (← f right)
  | isPattern expression pattern => return isPattern (← f expression) (← f pattern)
  | constantPattern value => return constantPattern (← f value)
  | notPattern pattern => return notPattern (← f pattern)
  | assignment target value => return assignment (← f target) (← f value)
  | objectCreation type arguments => return objectCreation (← f type) (← arguments.mapM f)
  | invocation callee arguments => return invocation (← f callee) (← arguments.mapM f)
  | memberAccess target member => return memberAccess (← f target) member
  | identifier name => return identifier name
  | literal value => return literal value

@[simp]
theorem kind_mapIdx (f : Nat → α → β) (s : Shape α) : (s.mapIdx f).kind = s.kind := by
  cases s <;> rfl

@[simp]
theorem children_mapIdx (f : Nat → α → β) (s : Shape α) :
    (s.mapIdx f).children = s.children.mapIdx f := by
  cases s with
  | methodDecl => simp [mapIdx, children, List.mapIdx_append]
  | ifStmt _ _ e => cases e <;> simp [mapIdx, children]
  | returnStmt e => cases e <;> simp [mapIdx, children]
  | localDecl _ _ e => cases e <;> simp [mapIdx, children]
  | tryStmt _ _ e => cases e <;> simp [mapIdx, children, List.mapIdx_append]
  | catchClause e => cases e <;> simp [mapIdx, children]
  | _ => simp [mapIdx, children]

theorem mapIdx_mapIdx (f : Nat → α → β) (g : Nat → β → γ) (s : Shape α) :
    (s.mapIdx f).mapIdx g = s.mapIdx fun i a => g i (f i a) := by
  cases s with
  | ifStmt _ _ e => cases e <;> simp [mapIdx]
  | returnStmt e => cases e <;> simp [mapIdx]
  | localDecl _ _ e => cases e <;> simp [mapIdx]
  | tryStmt _ _ e => cases e <;> simp [mapIdx, Function.comp_def]
  | catchClause e => cases e <;> simp [mapIdx]
  | _ => simp [mapIdx, Function.comp_def]

theorem mapIdx_const (f : α → β) (xs : List α) : xs.mapIdx (fun _ => f) = xs.map f := by
  apply List.ext_getElem <;> simp

theorem mapIdx_getElem?_append (xs ys : List α) :
    xs.mapIdx (fun i _ => (xs ++ ys)[i]?) = xs.map some := by
  apply List.ext_getElem
  · simp
  · intro i hi _
    have hi : i < xs.length := by simpa using hi
    simp [List.getElem?_append_left hi, hi]

theorem mapIdx_getElem? (xs : List α) : xs.mapIdx (fun i _ => xs[i]?) = xs.map some := by
  simpa using mapIdx_getElem?_append xs []

@[simp]
theorem kind_map (f : α → β) (s : Shape α) : (s.map f).kind = s.kind := kind_mapIdx _ s

@[simp]
theorem children_map (f : α → β) (s : Shape α) : (s.map f).children = s.children.map f := by
  simp [map, mapIdx_const]

@[simp]
theorem form_mapIdx (f : Nat → α → β) (s : Shape α) : (s.mapIdx f).form = s.form :=
  mapIdx_mapIdx f _ s

@[simp]
theorem form_map (f : α → β) (s : Shape α) : (s.map f).form = s.form := form_mapIdx _ s

@[simp]
theorem kind_form (s : Shape α) : s.form.kind = s.kind := kind_map _ s

theorem form_mapIdx_children (s : Shape α) :
    s.form.mapIdx (fun i _ => s.children[i]?) = s.map some := by
  rw [form, map, mapIdx_mapIdx]
  cases s with
  | methodDecl => simp [map, mapIdx, children, mapIdx_getElem?_append, mapIdx_const]
  | ifStmt _ _ e => cases e <;> simp [map, mapIdx, children]
  | returnStmt e => cases e <;> simp [map, mapIdx, children]
  | localDecl _ _ e => cases e <;> simp [map, mapIdx, children]
  | tryStmt _ _ e => cases e <;> simp [map, mapIdx, children, mapIdx_getElem?_append,
      mapIdx_getElem?, mapIdx_const]
  | catchClause e => cases e <;> simp [map, mapIdx, children]
  | _ => simp [map, mapIdx, children, mapIdx_getElem?, mapIdx_const]

theorem map_injective {f : α → β} (hf : ∀ a b, f a = f b → a = b) {s t : Shape α}
    (h : s.map f = t.map f) : s = t := by
  have hk : s.kind = t.kind := by rw [← kind_map f s, h, kind_map]
  have hl (xs ys : List α) : xs.map f = ys.map f ↔ xs = ys :=
    List.map_inj_right hf
  have ho (x y : Option α) : x.map f = y.map f ↔ x = y := by
    cases x <;> cases y <;> simp
    exact ⟨hf _ _, congrArg f⟩
  have he (a b : α) : f a = f b ↔ a = b := ⟨hf a b, congrArg f⟩
  cases s <;> cases t <;> simp_all [kind, map, mapIdx, mapIdx_const]

/-- Form and children determine a shape. -/
theorem eq_of_form_eq {s t : Shape α} (hf : s.form = t.form) (hc : s.children = t.children) :
    s = t := by
  apply map_injective (f := some) (fun _ _ h => Option.some.inj h)
  rw [← form_mapIdx_children s, ← form_mapIdx_children t, hf, hc]

theorem sizeOf_lt_of_mem_children [SizeOf α] {s : Shape α} {a : α} (h : a ∈ s.children) :
    sizeOf a < sizeOf s := by
  have hlist (as : List α) (ha : a ∈ as) : sizeOf a < sizeOf as := List.sizeOf_lt_of_mem ha
  have hoption (o : Option α) (ha : a ∈ o.toList) : sizeOf a < sizeOf o := by
    rw [Option.mem_toList.1 ha]
    simp
  cases s <;> simp only [children, List.mem_cons, List.mem_append, List.not_mem_nil, or_false] at h
    <;> grind

theorem length_children_form (s : Shape α) : s.form.children.length = s.children.length := by
  simp [form]

end Shape

end TreeLint
