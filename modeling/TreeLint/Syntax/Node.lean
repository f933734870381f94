import TreeLint.Span
import TreeLint.Syntax.Shape

namespace TreeLint

structure Node where
  span : Span
  shape : Shape Node
deriving Repr

instance : Inhabited Node := ⟨⟨default, .block []⟩⟩

namespace Node

def kind (n : Node) : Kind := n.shape.kind

def category (n : Node) : Category := n.kind.category

/-- The children in source order. -/
def children (n : Node) : List Node := n.shape.children

/-- The node with another child at the index, or nothing when there is no child there. -/
def withChild? (n : Node) (i : Nat) (child : Node) : Option Node :=
  if i < n.children.length then
    some ⟨n.span, n.shape.mapIdx fun j old => if j = i then child else old⟩
  else
    none

variable {β : Type}

mutual

/-- Computes a value for a tree from the values for its children. -/
def fold (step : Span → Shape β → β) : Node → β
  | ⟨span, shape⟩ => step span (foldShape step shape)

def foldShape (step : Span → Shape β → β) : Shape Node → Shape β
  | .compilationUnit members => .compilationUnit (foldList step members)
  | .namespaceDecl name members => .namespaceDecl name (foldList step members)
  | .classDecl modifiers name members => .classDecl modifiers name (foldList step members)
  | .methodDecl modifiers returnType name parameters body =>
    .methodDecl modifiers (fold step returnType) name (foldList step parameters) (fold step body)
  | .parameter modifier type name => .parameter modifier (fold step type) name
  | .typeRef name => .typeRef name
  | .block statements => .block (foldList step statements)
  | .ifStmt condition thenBranch elseBranch =>
    .ifStmt (fold step condition) (fold step thenBranch) (foldOption step elseBranch)
  | .returnStmt value => .returnStmt (foldOption step value)
  | .exprStmt expression => .exprStmt (fold step expression)
  | .localDecl type name initializer =>
    .localDecl (fold step type) name (foldOption step initializer)
  | .tryStmt body catches finalizer =>
    .tryStmt (fold step body) (foldList step catches) (foldOption step finalizer)
  | .catchClause exceptionType name body =>
    .catchClause (foldOption step exceptionType) name (fold step body)
  | .binary operator left right => .binary operator (fold step left) (fold step right)
  | .isPattern expression pattern => .isPattern (fold step expression) (fold step pattern)
  | .constantPattern value => .constantPattern (fold step value)
  | .notPattern pattern => .notPattern (fold step pattern)
  | .assignment target value => .assignment (fold step target) (fold step value)
  | .objectCreation type arguments => .objectCreation (fold step type) (foldList step arguments)
  | .invocation callee arguments => .invocation (fold step callee) (foldList step arguments)
  | .memberAccess target member => .memberAccess (fold step target) member
  | .identifier name => .identifier name
  | .literal value => .literal value

def foldList (step : Span → Shape β → β) : List Node → List β
  | [] => []
  | n :: ns => fold step n :: foldList step ns

def foldOption (step : Span → Shape β → β) : Option Node → Option β
  | none => none
  | some n => some (fold step n)

end

theorem foldList_eq_map (step : Span → Shape β → β) (ns : List Node) :
    foldList step ns = ns.map (fold step) := by
  induction ns with
  | nil => rfl
  | cons n ns ih => simp [foldList, ih]

theorem foldOption_eq_map (step : Span → Shape β → β) (n : Option Node) :
    foldOption step n = n.map (fold step) := by
  cases n <;> rfl

theorem foldShape_eq_map (step : Span → Shape β → β) (s : Shape Node) :
    foldShape step s = s.map (fold step) := by
  cases s <;> simp [foldShape, Shape.map, Shape.mapIdx, Shape.mapIdx_const, foldList_eq_map,
    foldOption_eq_map]

theorem fold_eq (step : Span → Shape β → β) (n : Node) :
    n.fold step = step n.span (n.shape.map (fold step)) := by
  obtain ⟨span, shape⟩ := n
  rw [fold, foldShape_eq_map]

theorem sizeOf_lt_of_mem {c n : Node} (h : c ∈ n.children) : sizeOf c < sizeOf n := by
  obtain ⟨span, shape⟩ := n
  have hshape : sizeOf c < sizeOf shape := Shape.sizeOf_lt_of_mem_children h
  rw [mk.sizeOf_spec]
  omega

/-- Induction on a tree whose hypothesis covers the children of the node. -/
theorem induction_children {P : Node → Prop} (h : ∀ n, (∀ c ∈ n.children, P c) → P n) (n : Node) :
    P n :=
  h n fun c _ => induction_children h c
termination_by sizeOf n
decreasing_by exact sizeOf_lt_of_mem ‹_›

theorem ext_form {m n : Node} (hs : m.span = n.span) (hf : m.shape.form = n.shape.form)
    (hc : m.children = n.children) : m = n := by
  obtain ⟨ms, mshape⟩ := m
  obtain ⟨ns, nshape⟩ := n
  cases hs
  cases Shape.eq_of_form_eq hf hc
  rfl

/-- Equality of trees, decided from the root down. -/
def beq (m n : Node) : Bool :=
  m.span == n.span && m.shape.form == n.shape.form &&
    (m.children.attach.zip n.children).all fun (⟨c, _⟩, d) => beq c d
termination_by sizeOf m
decreasing_by exact sizeOf_lt_of_mem ‹_›

theorem beq_iff {m n : Node} : m.beq n ↔ m = n := by
  induction m using induction_children generalizing n with
  | h m ih =>
    rw [beq]
    simp only [Bool.and_eq_true, beq_iff_eq, List.all_eq_true]
    constructor
    · rintro ⟨⟨hs, hf⟩, hc⟩
      have hl : m.children.length = n.children.length := by
        rw [children, children, ← Shape.length_children_form, hf, Shape.length_children_form]
      refine ext_form hs hf (List.ext_getElem hl fun i hi hj => ?_)
      refine (ih _ (List.getElem_mem hi)).1 (hc (⟨m.children[i], List.getElem_mem hi⟩,
        n.children[i]) ?_)
      rw [List.mem_iff_getElem]
      exact ⟨i, by simpa using Nat.lt_min.2 ⟨hi, hj⟩, by simp⟩
    · rintro rfl
      refine ⟨⟨rfl, rfl⟩, ?_⟩
      rintro ⟨⟨c, hc⟩, d⟩ hcd
      obtain ⟨i, hi, he⟩ := List.mem_iff_getElem.1 hcd
      simp only [List.getElem_zip, List.getElem_attach, Prod.mk.injEq, Subtype.mk.injEq] at he
      exact (ih c hc).2 (he.1.symm.trans he.2)

instance : DecidableEq Node := fun _ _ => decidable_of_iff _ beq_iff

end Node

end TreeLint
