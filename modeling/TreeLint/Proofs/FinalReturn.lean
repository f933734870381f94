import TreeLint.Proofs.FixSteps
import TreeLint.Proofs.Substitution

namespace TreeLint.TryMethod

variable {span : Span} {condition thenBranch target new : Node} {elseBranch value : Option Node}

theorem returned?_eq_some {n : Node} : returned? n = some value ↔ n.shape = .returnStmt value := by
  rw [returned?.eq_def]
  split <;> simp_all

theorem returned?_eq_none_iff {n : Node} : returned? n = none ↔ n.kind ≠ .returnStmt := by
  obtain ⟨span, shape⟩ := n
  cases shape with
  | returnStmt => exact ⟨fun h => (by cases h), fun h => absurd rfl h⟩
  | _ => exact ⟨fun _ h => (by cases h), fun _ => rfl⟩

theorem finalReturn?_eq_some (h : finalReturn? thenBranch = some (target, value)) :
    target.shape = .returnStmt value := by
  rw [finalReturn?.eq_def] at h
  split at h
  · obtain ⟨s, -, hs⟩ := List.exists_of_findSome?_eq_some h
    obtain ⟨v, hv, he⟩ := Option.map_eq_some_iff.1 hs
    cases he
    exact returned?_eq_some.1 hv
  · rename_i hshape
    cases h
    exact hshape
  · cases h

/-- What an `if` becomes. The return that is found may be another one than the last. -/
inductive IfBecomes (statement : Node) : Node → Prop where
  | unchanged : IfBecomes statement statement
  | assigned {p : Path} {target assigned new : Node} {value : Option Node}
      (htarget : statement.subtree? p = some target) (hshape : target.shape = .returnStmt value)
      (hassigned : assignment target.span value = .ok assigned)
      (hnew : statement.replace? p assigned = some new) : IfBecomes statement new

theorem becomes_of_fixIf {statement : Node} (h : fixIf statement thenBranch = .ok new) :
    IfBecomes statement new := by
  rw [fixIf.eq_def] at h
  split at h
  · rename_i target value htarget
    obtain ⟨assigned, hassigned, h⟩ := bind_eq_ok.1 h
    obtain ⟨p, hp, hnew⟩ := Node.substitute_eq_ok (mapError_eq_ok.1 h)
    exact .assigned hp (finalReturn?_eq_some htarget) hassigned hnew
  · cases h
    exact .unchanged

/-- The return that is replaced in an `if` with this then-branch, and the branch around it: the
branch is the return itself, or a block in which no later statement is a return. -/
inductive LastReturn (target : Node) : (thenBranch : Node) → (context : Node → Node) → Prop where
  | branch (h : target.kind = .returnStmt) : LastReturn target target id
  | block {span : Span} {before behind : List Node} (h : target.kind = .returnStmt)
      (hlast : ∀ s ∈ behind, s.kind ≠ .returnStmt) :
      LastReturn target ⟨span, .block (before ++ target :: behind)⟩
        fun new => ⟨span, .block (before ++ new :: behind)⟩

theorem exists_lastReturn (h : finalReturn? thenBranch = some (target, value)) :
    ∃ context, LastReturn target thenBranch context := by
  have hkind : target.kind = .returnStmt := by
    rw [Node.kind, finalReturn?_eq_some h]
    rfl
  obtain ⟨span, shape⟩ := thenBranch
  rw [finalReturn?.eq_def] at h
  split at h
  · rename_i statements hblock
    cases hblock
    obtain ⟨behind, s, before, hsplit, hs, hlast⟩ := List.findSome?_eq_some_iff.1 h
    obtain ⟨v, -, he⟩ := Option.map_eq_some_iff.1 hs
    cases he
    have hstatements : statements = before.reverse ++ target :: behind.reverse := by
      rw [← List.reverse_reverse statements, hsplit]
      simp
    rw [hstatements]
    refine ⟨_, .block hkind fun s hs => ?_⟩
    rw [← returned?_eq_none_iff, ← Option.map_eq_none_iff]
    exact hlast s (List.mem_reverse.1 hs)
  · cases h
    exact ⟨id, .branch hkind⟩
  · cases h

namespace LastReturn

variable {context : Node → Node}

theorem finalReturn?_eq (h : LastReturn target thenBranch context)
    (hshape : target.shape = .returnStmt value) :
    finalReturn? thenBranch = some (target, value) := by
  cases h with
  | branch => rw [finalReturn?, hshape]
  | @block span before behind _ hlast =>
    have hbehind : behind.reverse.findSome? (fun s => (returned? s).map (s, ·)) = none := by
      rw [List.findSome?_eq_none_iff]
      intro s hs
      rw [returned?_eq_none_iff.2 (hlast s (List.mem_reverse.1 hs)), Option.map_none]
    rw [finalReturn?]
    simp only [List.reverse_append, List.reverse_cons, List.append_assoc, List.findSome?_append,
      hbehind, Option.none_or, List.cons_append, List.nil_append, List.findSome?_cons,
      returned?_eq_some.2 hshape, Option.map_some]

theorem exists_place (h : LastReturn target thenBranch context) (span : Span) (condition : Node)
    (elseBranch : Option Node) :
    ∃ p, (⟨span, .ifStmt condition thenBranch elseBranch⟩ : Node).subtree? p = some target ∧
      ∀ new, (⟨span, .ifStmt condition thenBranch elseBranch⟩ : Node).replace? p new =
        some ⟨span, .ifStmt condition (context new) elseBranch⟩ := by
  cases h with
  | branch =>
    refine ⟨[1], rfl, fun new => ?_⟩
    simp [Node.replace?, Node.children, Shape.children, Node.withChild?, Shape.mapIdx]
  | @block _ before =>
    refine ⟨[1, before.length], ?_, fun new => ?_⟩
    · simp [Node.subtree?, Node.children, Shape.children]
    · simp [Node.replace?, Node.children, Shape.children, Node.withChild?, Shape.mapIdx,
        Node.mapIdx_eq_set]

end LastReturn

/-- The target is the final return of a then-branch, in the context of the rest of the branch. No
statement before it holds its span. -/
inductive FinalReturn (target : Node) : (thenBranch : Node) → (context : Node → Node) → Prop where
  | self : FinalReturn target target id
  | last {span : Span} {before behind : List Node}
      (hbefore : ∀ s ∈ before, ¬ s.span.contains target.span)
      (htarget : span.contains target.span) :
      FinalReturn target ⟨span, .block (before ++ target :: behind)⟩
        fun new => ⟨span, .block (before ++ new :: behind)⟩

theorem exists_finalReturn (hthen : thenBranch.StrictlyNested)
    (h : finalReturn? thenBranch = some (target, value)) :
    ∃ context, FinalReturn target thenBranch context := by
  obtain ⟨context, hlast⟩ := exists_lastReturn h
  cases hlast with
  | branch => exact ⟨id, .self⟩
  | @block span before behind =>
    have hmem : target ∈ before ++ target :: behind := List.mem_append_cons_self
    refine ⟨_, .last (fun s hs hcontains => ?_) (hthen.self.within target hmem)⟩
    -- The target is not empty, so a sibling that held its span would overlap it.
    have hapart := (List.pairwise_append.1 hthen.self.apart).2.2 s hs target List.mem_cons_self
    apply hapart
    apply Span.overlaps_of_contains hcontains (Span.contains_self _)
    exact (hthen.child hmem).self.nonempty

namespace FinalReturn

variable {context : Node → Node}

theorem contains (h : FinalReturn target thenBranch context) :
    thenBranch.span.contains target.span := by
  cases h with
  | self => exact Span.contains_self _
  | last _ htarget => exact htarget

theorem mem_preorder (h : FinalReturn target thenBranch context) :
    target ∈ thenBranch.preorder := by
  cases h with
  | self => exact Node.self_mem_preorder _
  | last =>
    refine Node.mem_preorder_of_child (c := target) ?_ target.self_mem_preorder
    simp [Node.children, Shape.children]

theorem exists_pathTo? (h : FinalReturn target thenBranch context)
    (hvalue : target.shape = .returnStmt value) :
    ∃ p, Node.pathTo? target thenBranch = some p ∧
      ∀ new, thenBranch.replace? p new = some (context new) := by
  cases h with
  | self => exact ⟨[], by rw [Node.pathTo?_eq, if_pos rfl], fun _ => rfl⟩
  | @last span before behind hbefore htarget =>
    refine ⟨[before.length], ?_, fun new => ?_⟩
    · refine Node.pathTo?_of_child ?_ rfl (fun a ha hcontains => absurd hcontains (hbefore a ha))
        (Span.contains_self _) (by rw [Node.pathTo?_eq, if_pos rfl])
      intro he
      rw [← he] at hvalue
      cases hvalue
    · rw [Node.replace?_cons]
      simp [Node.children, Shape.children, Node.replace?, Node.withChild?, Shape.mapIdx,
        Node.mapIdx_eq_set]

/-- The search in the whole `if` passes the condition by and then ends at that place. -/
theorem substitute (h : FinalReturn target thenBranch context)
    (hvalue : target.shape = .returnStmt value)
    (hcondition : ¬ condition.span.contains target.span) (hnew : new.category = .statement) :
    (⟨span, .ifStmt condition thenBranch elseBranch⟩ : Node).substitute target new =
      .ok ⟨span, .ifStmt condition (context new) elseBranch⟩ := by
  obtain ⟨p, hp, hreplace⟩ := h.exists_pathTo? hvalue
  have hcategory : target.category = new.category := by
    rw [hnew, Node.category, Node.kind, hvalue]
    rfl
  have hchildren : (⟨span, .ifStmt condition thenBranch elseBranch⟩ : Node).children =
      [condition] ++ thenBranch :: elseBranch.toList := rfl
  refine Node.substitute_of_pathTo? hcategory
    (Node.pathTo?_of_child ?_ hchildren ?_ h.contains hp) ?_
  · intro he
    rw [← he] at hvalue
    cases hvalue
  · intro a ha hcontains
    cases List.mem_singleton.1 ha
    exact absurd hcontains hcondition
  · rw [Node.replace?_cons]
    simp [Node.children, Shape.children, hreplace, Node.withChild?, Shape.mapIdx]

end FinalReturn

theorem exists_finalReturn_of_ifStmt
    (hn : (⟨span, .ifStmt condition thenBranch elseBranch⟩ : Node).StrictlyNested)
    (h : finalReturn? thenBranch = some (target, value)) :
    ∃ context, FinalReturn target thenBranch context ∧ ¬ condition.span.contains target.span := by
  have hthen := hn.child (c := thenBranch) (by simp [Node.children, Shape.children])
  obtain ⟨context, hcontext⟩ := exists_finalReturn hthen h
  refine ⟨context, hcontext, ?_⟩
  intro hcontains
  have hapart := (List.pairwise_cons.1 hn.self.apart).1 thenBranch List.mem_cons_self
  apply hapart
  apply Span.overlaps_of_contains hcontains hcontext.contains
  exact (hthen.below hcontext.mem_preorder).self.nonempty

theorem category_assignment {value : Option Node} (h : assignment span value = .ok new) :
    new.category = .statement := by
  cases value with
  | none => cases h
  | some value =>
    cases h
    rfl

theorem fixIf_of_substitute {context : Node → Node}
    (hfinal : finalReturn? thenBranch = some (target, value))
    (h : ∀ new : Node, new.category = .statement →
      (⟨span, .ifStmt condition thenBranch elseBranch⟩ : Node).substitute target new =
        .ok ⟨span, .ifStmt condition (context new) elseBranch⟩) :
    fixIf ⟨span, .ifStmt condition thenBranch elseBranch⟩ thenBranch =
      (assignment target.span value).map fun new =>
        ⟨span, .ifStmt condition (context new) elseBranch⟩ := by
  rw [fixIf, hfinal]
  dsimp only
  cases hnew : assignment target.span value with
  | error e => rfl
  | ok new =>
    change Except.mapError _ (Node.substitute _ _ _) = _
    rw [h new (category_assignment hnew)]
    rfl

/-- The fix of an `if` replaces the final return of its then-branch and changes nothing else. -/
theorem fixIf_eq {context : Node → Node} (hfinal : finalReturn? thenBranch = some (target, value))
    (h : FinalReturn target thenBranch context)
    (hcondition : ¬ condition.span.contains target.span) :
    fixIf ⟨span, .ifStmt condition thenBranch elseBranch⟩ thenBranch =
      (assignment target.span value).map fun new =>
        ⟨span, .ifStmt condition (context new) elseBranch⟩ :=
  fixIf_of_substitute hfinal fun _ => h.substitute (finalReturn?_eq_some hfinal) hcondition

theorem body_mem_children {modifiers : List Modifier} {returnType body : Node} {name : String}
    {parameters : List Node} :
    body ∈ (⟨span, .methodDecl modifiers returnType name parameters body⟩ : Node).children := by
  simp [Node.children, Shape.children]

theorem contained_of_mem_body {modifiers : List Modifier} {returnType body s : Node} {name : String}
    {parameters statements : List Node}
    (h : (⟨span, .methodDecl modifiers returnType name parameters body⟩ : Node).Contained)
    (hbody : body.shape = .block statements) (hs : s ∈ statements) : s.Contained := by
  apply (h.child body_mem_children).child
  rwa [Node.children, hbody]

end TreeLint.TryMethod
