import TreeLint.Proofs.Children

namespace TreeLint

namespace Shape

variable {α β : Type} {s t : Shape α}

/-- What a production may hold besides its children. -/
structure Fields where
  modifiers : List Modifier := []
  parameterModifier : Option ParameterModifier := none
  name : Option String := none
  typeName : Option TypeName := none
  operator : Option Operator := none
  value : Option LiteralValue := none
  /-- Whether the child that may be left out is there. -/
  filled : Bool := false
deriving DecidableEq, Repr

def fields : Shape α → Fields
  | compilationUnit _ => {}
  | namespaceDecl name _ => { name := name }
  | classDecl modifiers name _ => { modifiers := modifiers, name := name }
  | methodDecl modifiers _ name _ _ => { modifiers := modifiers, name := name }
  | parameter modifier _ name => { parameterModifier := modifier, name := name }
  | typeRef name => { typeName := name }
  | block _ => {}
  | ifStmt _ _ elseBranch => { filled := elseBranch.isSome }
  | returnStmt value => { filled := value.isSome }
  | exprStmt _ => {}
  | localDecl _ name initializer => { name := name, filled := initializer.isSome }
  | tryStmt _ _ finalizer => { filled := finalizer.isSome }
  | catchClause exceptionType name _ => { name := name, filled := exceptionType.isSome }
  | binary operator _ _ => { operator := operator }
  | isPattern _ _ => {}
  | constantPattern _ => {}
  | notPattern _ => {}
  | assignment _ _ => {}
  | objectCreation _ _ => {}
  | invocation _ _ => {}
  | memberAccess _ member => { name := member }
  | identifier name => { name := name }
  | literal value => { value := value }

/-- The lists that writing one element gives, from the first element to the last. -/
def elementRefills (c : α) : List α → List (List α)
  | [] => []
  | x :: xs => (c :: xs) :: (elementRefills c xs).map (x :: ·)

/-- The shapes that writing one child gives, from the first slot to the last. -/
def refills (c : α) : Shape α → List (Shape α)
  | compilationUnit members => (elementRefills c members).map compilationUnit
  | namespaceDecl name members => (elementRefills c members).map (namespaceDecl name)
  | classDecl modifiers name members => (elementRefills c members).map (classDecl modifiers name)
  | methodDecl modifiers returnType name parameters body =>
    methodDecl modifiers c name parameters body ::
      (((elementRefills c parameters).map fun ps => methodDecl modifiers returnType name ps body) ++
        [methodDecl modifiers returnType name parameters c])
  | parameter modifier _ name => [parameter modifier c name]
  | typeRef _ => []
  | block statements => (elementRefills c statements).map block
  | ifStmt condition thenBranch elseBranch =>
    ifStmt c thenBranch elseBranch :: ifStmt condition c elseBranch ::
      elseBranch.toList.map fun _ => ifStmt condition thenBranch (some c)
  | returnStmt value => value.toList.map fun _ => returnStmt (some c)
  | exprStmt _ => [exprStmt c]
  | localDecl type name initializer =>
    localDecl c name initializer :: initializer.toList.map fun _ => localDecl type name (some c)
  | tryStmt body catches finalizer =>
    tryStmt c catches finalizer ::
      (((elementRefills c catches).map fun cs => tryStmt body cs finalizer) ++
        finalizer.toList.map fun _ => tryStmt body catches (some c))
  | catchClause exceptionType name body =>
    (exceptionType.toList.map fun _ => catchClause (some c) name body) ++
      [catchClause exceptionType name c]
  | binary operator left right => [binary operator c right, binary operator left c]
  | isPattern expression pattern => [isPattern c pattern, isPattern expression c]
  | constantPattern _ => [constantPattern c]
  | notPattern _ => [notPattern c]
  | assignment target value => [assignment c value, assignment target c]
  | objectCreation type arguments =>
    objectCreation c arguments :: (elementRefills c arguments).map (objectCreation type)
  | invocation callee arguments =>
    invocation c arguments :: (elementRefills c arguments).map (invocation callee)
  | memberAccess _ member => [memberAccess c member]
  | identifier _ => []
  | literal _ => []

theorem fields_map (f : α → β) (s : Shape α) : (s.map f).fields = s.fields := by
  cases s <;> simp [map, mapIdx, fields]

theorem toList_inj {x y : Option α} : x.toList = y.toList ↔ x = y := by
  cases x <;> cases y <;> simp

theorem append_toList_inj {xs ys : List α} {x y : Option α} (h : x.isSome = y.isSome) :
    xs ++ x.toList = ys ++ y.toList ↔ xs = ys ∧ x = y := by
  have hlength : x.toList.length = y.toList.length := by
    cases x <;> cases y <;> simp_all
  rw [← toList_inj]
  constructor
  · intro he
    exact List.append_inj' he hlength
  · intro he
    rw [he.1, he.2]

/-- Kind, fields and children are all that there is to a shape. -/
theorem eq_of_fields_eq (hk : s.kind = t.kind) (hf : s.fields = t.fields)
    (hc : s.children = t.children) : s = t := by
  -- The children of a `try` alone can be shared out in two ways: the last may be a clause or the
  -- finalizer.
  cases s <;> cases t <;> simp_all [kind, fields, children, toList_inj, append_toList_inj]

theorem elementRefills_append (c : α) (xs ys : List α) :
    elementRefills c (xs ++ ys) =
      (elementRefills c xs).map (· ++ ys) ++ (elementRefills c ys).map (xs ++ ·) := by
  induction xs with
  | nil => simp [elementRefills]
  | cons x xs ih => simp [elementRefills, ih, Function.comp_def]

theorem getElem?_elementRefills (c : α) (xs : List α) (i : Nat) :
    (elementRefills c xs)[i]? = if i < xs.length then some (xs.set i c) else none := by
  induction xs generalizing i with
  | nil => rfl
  | cons x xs ih =>
    cases i with
    | zero => simp [elementRefills]
    | succ i => by_cases hi : i < xs.length <;> simp [elementRefills, ih, hi]

/-- Writing to the slots of a shape writes to its list of children from left to right. -/
theorem map_children_refills (c : α) (s : Shape α) :
    (s.refills c).map children = elementRefills c s.children := by
  cases s with
  | methodDecl =>
    simp [refills, children, elementRefills, elementRefills_append, Function.comp_def]
  | ifStmt _ _ e => cases e <;> simp [refills, children, elementRefills]
  | returnStmt e => cases e <;> simp [refills, children, elementRefills]
  | localDecl _ _ e => cases e <;> simp [refills, children, elementRefills]
  | tryStmt _ _ e =>
    cases e <;>
      simp [refills, children, elementRefills, elementRefills_append, Function.comp_def]
  | catchClause e => cases e <;> simp [refills, children, elementRefills]
  | _ => simp [refills, children, elementRefills, Function.comp_def]

theorem kind_and_fields_refills (c : α) (s : Shape α) :
    ∀ t ∈ s.refills c, t.kind = s.kind ∧ t.fields = s.fields := by
  cases s with
  | methodDecl =>
    simp only [refills, List.forall_mem_cons, List.forall_mem_append, List.forall_mem_map]
    simp [kind, fields]
  | ifStmt _ _ e => cases e <;> simp [refills, kind, fields]
  | returnStmt e => cases e <;> simp [refills, kind, fields]
  | localDecl _ _ e => cases e <;> simp [refills, kind, fields]
  | tryStmt _ _ e =>
    simp only [refills, List.forall_mem_cons, List.forall_mem_append, List.forall_mem_map]
    cases e <;> simp [kind, fields]
  | catchClause e => cases e <;> simp [refills, kind, fields]
  | _ => simp [refills, kind, fields]

end Shape

namespace Node

variable {c d k m n : Node} {cs ds : List Node} {i j : Nat}

/-- The second node is the first with other children. -/
structure WithChildren (n : Node) (cs : List Node) (m : Node) : Prop where
  span_eq : m.span = n.span
  kind_eq : m.kind = n.kind
  fields_eq : m.shape.fields = n.shape.fields
  children_eq : m.children = cs

theorem withChildren_self (n : Node) : n.WithChildren n.children n := ⟨rfl, rfl, rfl, rfl⟩

theorem WithChildren.unique (hm : n.WithChildren cs m) (hk : n.WithChildren cs k) : m = k := by
  obtain ⟨mspan, mshape⟩ := m
  obtain ⟨kspan, kshape⟩ := k
  have hspan : mspan = kspan := hm.span_eq.trans hk.span_eq.symm
  have hshape : mshape = kshape := Shape.eq_of_fields_eq (hm.kind_eq.trans hk.kind_eq.symm)
    (hm.fields_eq.trans hk.fields_eq.symm) (hm.children_eq.trans hk.children_eq.symm)
  rw [hspan, hshape]

theorem WithChildren.trans_iff (hm : n.WithChildren cs m) :
    m.WithChildren ds k ↔ n.WithChildren ds k := by
  constructor
  · intro hk
    exact ⟨hk.span_eq.trans hm.span_eq, hk.kind_eq.trans hm.kind_eq,
      hk.fields_eq.trans hm.fields_eq, hk.children_eq⟩
  · intro hk
    exact ⟨hk.span_eq.trans hm.span_eq.symm, hk.kind_eq.trans hm.kind_eq.symm,
      hk.fields_eq.trans hm.fields_eq.symm, hk.children_eq⟩

theorem withChildren_of_withChild? (h : n.withChild? i c = some m) :
    n.WithChildren (n.children.set i c) m := by
  obtain ⟨hspan, hform, hchildren⟩ := withChild?_eq_some h
  have hfields : m.shape.form.fields = n.shape.form.fields := congrArg Shape.fields hform
  rw [Shape.form, Shape.form, Shape.fields_map, Shape.fields_map] at hfields
  exact ⟨hspan, kind_eq_of_form_eq hform, hfields, hchildren⟩

theorem length_children_of_withChild? (h : n.withChild? i c = some m) :
    m.children.length = n.children.length := by
  rw [(withChildren_of_withChild? h).children_eq, List.length_set]

/-- There is a child to be replaced at the indices of the children, and nothing else is replaced. -/
theorem withChild?_eq_some_iff : n.withChild? i c = some m ↔
    i < n.children.length ∧ n.WithChildren (n.children.set i c) m := by
  constructor
  · intro h
    refine ⟨?_, withChildren_of_withChild? h⟩
    by_contra hi
    rw [withChild?, if_neg hi] at h
    cases h
  · rintro ⟨hi, hm⟩
    obtain ⟨k, hk⟩ := exists_withChild? hi c
    rw [hk, hm.unique (withChildren_of_withChild? hk)]

/-- The new child goes to the slot at the index, the slots counted as they are written. -/
theorem withChild?_eq_refills (n : Node) (i : Nat) (c : Node) :
    n.withChild? i c = (n.shape.refills c)[i]?.map fun shape => ⟨n.span, shape⟩ := by
  have hchildren : (n.shape.refills c)[i]?.map Shape.children =
      if i < n.children.length then some (n.children.set i c) else none := by
    rw [← List.getElem?_map, Shape.map_children_refills, Shape.getElem?_elementRefills]
    rfl
  -- Fields, span and children at once leave no choice for what stands at the index.
  by_cases hi : i < n.children.length
  · rw [if_pos hi, Option.map_eq_some_iff] at hchildren
    obtain ⟨s, hs, hsc⟩ := hchildren
    obtain ⟨hkind, hfields⟩ := Shape.kind_and_fields_refills c n.shape s (List.mem_of_getElem? hs)
    rw [hs, Option.map_some, withChild?_eq_some_iff]
    exact ⟨hi, rfl, hkind, hfields, hsc⟩
  · rw [if_neg hi, Option.map_eq_none_iff] at hchildren
    rw [hchildren, withChild?, if_neg hi, Option.map_none]

theorem withChild?_bind_eq_some_iff :
    (n.withChild? i c).bind (·.withChild? j d) = some k ↔ i < n.children.length ∧
      j < n.children.length ∧ n.WithChildren ((n.children.set i c).set j d) k := by
  rw [Option.bind_eq_some_iff]
  constructor
  · rintro ⟨m, hm, hk⟩
    obtain ⟨hi, hmn⟩ := withChild?_eq_some_iff.1 hm
    rw [withChild?_eq_some_iff, length_children_of_withChild? hm, hmn.trans_iff, hmn.children_eq] at hk
    exact ⟨hi, hk⟩
  · rintro ⟨hi, hk⟩
    obtain ⟨m, hm⟩ := exists_withChild? hi c
    have hmn := withChildren_of_withChild? hm
    refine ⟨m, hm, ?_⟩
    rw [withChild?_eq_some_iff, length_children_of_withChild? hm, hmn.trans_iff, hmn.children_eq]
    exact hk

/-- Reading and writing children at an index are a lens. There is something to write exactly where
there is something to read, and the write goes to the slot with that number. It is read again there,
and span, kind, fields and all other children are kept. Writing what was read changes nothing, a
second write to the index overrides the first, and writes to different indices may change places. -/
theorem withChild?_lens_laws (n : Node) (i : Nat) (c d : Node) :
    ((n.withChild? i c).isSome ↔ i < n.children.length) ∧
    (∀ m, n.withChild? i c = some m ↔
      i < n.children.length ∧ n.WithChildren (n.children.set i c) m) ∧
    n.withChild? i c = (n.shape.refills c)[i]?.map (fun shape => ⟨n.span, shape⟩) ∧
    (∀ old, n.children[i]? = some old → n.withChild? i old = some n) ∧
    (n.withChild? i c).bind (·.withChild? i d) = n.withChild? i d ∧
    ∀ j, i ≠ j → (n.withChild? i c).bind (·.withChild? j d) =
      (n.withChild? j d).bind (·.withChild? i c) := by
  refine ⟨?_, fun m => withChild?_eq_some_iff, withChild?_eq_refills n i c, ?_, ?_, ?_⟩
  · rw [withChild?, Option.isSome_ite]
  · intro old hold
    obtain ⟨hi, rfl⟩ := List.getElem?_eq_some_iff.1 hold
    rw [withChild?_eq_some_iff, List.set_getElem_self]
    exact ⟨hi, n.withChildren_self⟩
  · apply Option.ext
    intro k
    rw [withChild?_bind_eq_some_iff, withChild?_eq_some_iff, List.set_set, ← and_assoc, and_self]
  · intro j hij
    apply Option.ext
    intro k
    rw [withChild?_bind_eq_some_iff, withChild?_bind_eq_some_iff, List.set_comm c d hij,
      and_left_comm]

theorem withChild?_lens_laws_catchClause :
    let type : Node := ⟨⟨7, 8⟩, .typeRef (.named "E")⟩
    let wider : Node := ⟨⟨7, 8⟩, .typeRef (.named "F")⟩
    let body : Node := ⟨⟨10, 13⟩, .block []⟩
    let longer : Node := ⟨⟨10, 13⟩, .block [⟨⟨11, 12⟩, .returnStmt none⟩]⟩
    let clause : Node := ⟨⟨0, 13⟩, .catchClause (some type) none body⟩
    clause.children[1]? = some body ∧ clause.withChild? 1 body = some clause ∧ 0 ≠ 1 ∧
      (clause.withChild? 0 wider).bind (·.withChild? 1 longer) =
        (clause.withChild? 1 longer).bind (·.withChild? 0 wider) ∧
      (clause.withChild? 0 wider).bind (·.withChild? 1 longer) =
        some ⟨⟨0, 13⟩, .catchClause (some wider) none longer⟩ := by
  intro type wider body longer clause
  have hbody : clause.children[1]? = some body := rfl
  obtain ⟨-, -, -, hkept, -⟩ := withChild?_lens_laws clause 1 body body
  obtain ⟨-, -, -, -, -, hcomm⟩ := withChild?_lens_laws clause 0 wider longer
  exact ⟨hbody, hkept body hbody, by decide, hcomm 1 (by decide), rfl⟩

end Node

end TreeLint
