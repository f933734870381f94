import TreeLint.Proofs.Builtin
import TreeLint.Proofs.FinalReturn

namespace TreeLint

/-- A pass changes a node that no built-in rule looks at only by its children. -/
structure IsPass (g : Node → Node) : Prop where
  span (n : Node) : (g n).span = n.span
  category (n : Node) : (g n).category = n.category
  inner (n : Node) : ¬ n.isSite → g n = n.mapChildren g

namespace IsPass

variable {g h : Node → Node} {n : Node}

theorem comp (hg : IsPass g) (hh : IsPass h) : IsPass (g ∘ h) := by
  refine ⟨fun n => (hg.span _).trans (hh.span n), fun n => (hg.category _).trans (hh.category n),
    fun n hn => ?_⟩
  have hsite : ¬ (n.mapChildren h).isSite := by
    rwa [Node.isSite_congr (Node.kind_mapChildren h n)]
  rw [Function.comp_apply, hh.inner n hn, hg.inner _ hsite, Node.mapChildren_mapChildren]

theorem kind_eq_iff (hg : IsPass g) {k : Kind} (hmember : k.category ≠ .member)
    (hexpression : k.category ≠ .expression) : (g n).kind = k ↔ n.kind = k := by
  by_cases hn : n.isSite
  · have hcategory : n.category = .member ∨ n.category = .expression := by
      obtain ⟨r, hr⟩ := Option.isSome_iff_exists.1 hn
      obtain ⟨hr, hk⟩ := Kind.rule?_eq_some.1 hr
      rw [Node.category, ← hk]
      rcases Registry.mem_builtin.1 hr with rfl | rfl
      · exact .inr rfl
      · exact .inl rfl
    have hne (m : Node) (hm : m.category = n.category) : m.kind ≠ k := by
      intro hk
      subst hk
      rcases hcategory with hc | hc
      · exact hmember (hm.trans hc)
      · exact hexpression (hm.trans hc)
    exact iff_of_false (hne _ (hg.category n)) (hne n rfl)
  · rw [hg.inner n hn, Node.kind_mapChildren]

theorem mk_eq (hg : IsPass g) {span : Span} {shape : Shape Node} (h : shape.kind.rule? = none) :
    g ⟨span, shape⟩ = ⟨span, shape.map g⟩ := by
  apply hg.inner ⟨span, shape⟩
  rw [Node.isSite, Node.kind, h]
  exact Bool.false_ne_true

theorem eq_self (hg : IsPass g) (hn : n.Inert) : g n = n := by
  induction n using Node.induction_children with
  | h n ih =>
    rw [hg.inner n hn.self]
    exact Node.mapChildren_eq_self fun c hc => ih c hc (hn.child hc)

end IsPass

variable {g : Node → Node} {n : Node}

namespace ValueEquality

theorem patternFor?_pass (hg : IsPass g) (op : Operator) (right : Node) :
    patternFor? op (g right) = (patternFor? op right).map g := by
  have hconstant : g ⟨right.span, .constantPattern right⟩ =
      ⟨(g right).span, .constantPattern (g right)⟩ := by
    rw [hg.mk_eq rfl, hg.span]
    rfl
  cases op with
  | equals => exact congrArg some hconstant.symm
  | notEquals =>
    rw [patternFor?, patternFor?, Option.map_some, hg.mk_eq rfl, hg.span]
    simp only [Shape.map, Shape.mapIdx, hconstant, hg.span]
  | _ => rfl

theorem synthesize_mapChildren (hg : IsPass g) (n : Node) :
    synthesize (n.mapChildren g) = (synthesize n).map (Node.mapChildren g) := by
  obtain ⟨span, shape⟩ := n
  cases shape with
  | binary op left right =>
    simp only [synthesize, Node.mapChildren, Shape.map, Shape.mapIdx, patternFor?_pass hg]
    cases patternFor? op right with
    | none => rfl
    | some pattern => rfl
  | _ => rfl

end ValueEquality

namespace TryMethod

theorem assignment_pass (hg : IsPass g) (span : Span) (value : Option Node) :
    assignment span (value.map g) = (assignment span value).map g := by
  cases value with
  | none => rfl
  | some value =>
    have htarget : g ⟨.point span.start, .identifier outName⟩ =
        ⟨.point span.start, .identifier outName⟩ := hg.mk_eq rfl
    rw [assignment, Except.map, hg.mk_eq rfl]
    simp only [Shape.map, Shape.mapIdx]
    rw [hg.mk_eq rfl]
    simp only [Shape.map, Shape.mapIdx, htarget]
    rfl

theorem returned?_pass (hg : IsPass g) (n : Node) :
    returned? (g n) = (returned? n).map (Option.map g) := by
  by_cases hn : n.kind = .returnStmt
  · obtain ⟨span, shape⟩ := n
    cases shape with
    | returnStmt value =>
      rw [hg.mk_eq rfl]
      rfl
    | _ => cases hn
  · rw [returned?_eq_none_iff.2 hn, returned?_eq_none_iff.2]
    · rfl
    · rwa [ne_eq, hg.kind_eq_iff (by decide) (by decide)]

theorem finalReturn?_eq_none (hreturn : n.kind ≠ .returnStmt) (hblock : n.kind ≠ .block) :
    finalReturn? n = none := by
  obtain ⟨span, shape⟩ := n
  cases shape with
  | returnStmt => exact absurd rfl hreturn
  | block => exact absurd rfl hblock
  | _ => rfl

theorem finalReturn?_pass (hg : IsPass g) (n : Node) :
    finalReturn? (g n) = (finalReturn? n).map fun (target, value) => (g target, value.map g) := by
  by_cases hreturn : n.kind = .returnStmt
  · obtain ⟨span, shape⟩ := n
    cases shape with
    | returnStmt value =>
      have hself : g ⟨span, .returnStmt value⟩ = ⟨span, .returnStmt (value.map g)⟩ := hg.mk_eq rfl
      change finalReturn? (g _) = some (g _, value.map g)
      rw [hself]
      rfl
    | _ => cases hreturn
  · by_cases hblock : n.kind = .block
    · obtain ⟨span, shape⟩ := n
      cases shape with
      | block statements =>
        rw [hg.mk_eq rfl]
        simp only [finalReturn?, Shape.map, Shape.mapIdx, Shape.mapIdx_const, ← List.map_reverse,
          List.findSome?_map, List.map_findSome?]
        congr 1
        funext s
        rw [Function.comp_apply, Function.comp_apply, returned?_pass hg, Option.map_map,
          Option.map_map]
        rfl
      | _ => cases hblock
    · rw [finalReturn?_eq_none hreturn hblock, finalReturn?_eq_none]
      · rfl
      · rwa [ne_eq, hg.kind_eq_iff (by decide) (by decide)]
      · rwa [ne_eq, hg.kind_eq_iff (by decide) (by decide)]

theorem FinalReturn.pass {target thenBranch : Node} {context : Node → Node}
    (h : FinalReturn target thenBranch context) (hg : IsPass g) :
    ∃ context', FinalReturn (g target) (g thenBranch) context' ∧
      ∀ new, context' (g new) = g (context new) := by
  cases h with
  | self => exact ⟨_, .self, fun _ => rfl⟩
  | @last span before behind hbefore htarget =>
    have hblock (s : Node) : g ⟨span, .block (before ++ s :: behind)⟩ =
        ⟨span, .block (before.map g ++ g s :: behind.map g)⟩ := by
      rw [hg.mk_eq rfl]
      simp [Shape.map, Shape.mapIdx, Shape.mapIdx_const]
    rw [hblock]
    refine ⟨_, .last (fun s hs => ?_) ?_, fun new => (hblock new).symm⟩
    · obtain ⟨t, ht, rfl⟩ := List.mem_map.1 hs
      rw [hg.span, hg.span]
      exact hbefore t ht
    · rwa [hg.span]

theorem fixIf_pass {span : Span} {condition thenBranch : Node} {elseBranch : Option Node}
    (hg : IsPass g) (hn : (⟨span, .ifStmt condition thenBranch elseBranch⟩ : Node).StrictlyNested) :
    fixIf (g ⟨span, .ifStmt condition thenBranch elseBranch⟩) (g thenBranch) =
      (fixIf ⟨span, .ifStmt condition thenBranch elseBranch⟩ thenBranch).map g := by
  have hif (thenBranch : Node) : g ⟨span, .ifStmt condition thenBranch elseBranch⟩ =
      ⟨span, .ifStmt (g condition) (g thenBranch) (elseBranch.map g)⟩ := hg.mk_eq rfl
  cases hfinal : finalReturn? thenBranch with
  | none => simp only [fixIf, finalReturn?_pass hg, hfinal, Option.map_none, Except.map]
  | some p =>
    obtain ⟨target, value⟩ := p
    obtain ⟨context, hcontext, hcondition⟩ := exists_finalReturn_of_ifStmt hn hfinal
    obtain ⟨context', hcontext', hcommutes⟩ := hcontext.pass hg
    have hfinal' : finalReturn? (g thenBranch) = some (g target, value.map g) := by
      rw [finalReturn?_pass hg, hfinal, Option.map_some]
    have hcondition' : ¬ (g condition).span.contains (g target).span := by
      rwa [hg.span, hg.span]
    rw [fixIf_eq hfinal hcontext hcondition, hif, fixIf_eq hfinal' hcontext' hcondition', hg.span,
      assignment_pass hg]
    cases assignment target.span value with
    | error e => rfl
    | ok new =>
      simp only [Except.map, hcommutes, hif]

theorem fixStatement_eq_self (hreturn : n.kind ≠ .returnStmt) (hif : n.kind ≠ .ifStmt) :
    fixStatement n = .ok n := by
  obtain ⟨span, shape⟩ := n
  cases shape with
  | returnStmt => exact absurd rfl hreturn
  | ifStmt => exact absurd rfl hif
  | _ => rfl

theorem fixStatement_pass (hg : IsPass g) (hn : n.StrictlyNested) :
    fixStatement (g n) = (fixStatement n).map g := by
  by_cases hreturn : n.kind = .returnStmt
  · obtain ⟨span, shape⟩ := n
    cases shape with
    | returnStmt value =>
      rw [hg.mk_eq rfl]
      exact assignment_pass hg span value
    | _ => cases hreturn
  · by_cases hif : n.kind = .ifStmt
    · obtain ⟨span, shape⟩ := n
      cases shape with
      | ifStmt condition thenBranch elseBranch =>
        have hfix := fixIf_pass hg hn
        rw [hg.mk_eq rfl] at hfix ⊢
        exact hfix
      | _ => cases hif
    · rw [fixStatement_eq_self hreturn hif, fixStatement_eq_self]
      · rfl
      · rwa [ne_eq, hg.kind_eq_iff (by decide) (by decide)]
      · rwa [ne_eq, hg.kind_eq_iff (by decide) (by decide)]

theorem fixBody_pass {span : Span} {statements : List Node} (hg : IsPass g)
    (hstatements : ∀ s ∈ statements, s.StrictlyNested) :
    fixBody span (statements.map g) = (fixBody span statements).map g := by
  have hfixed := mapM_map_eq fun s hs => fixStatement_pass hg (hstatements s hs)
  have hinitialization := hg.eq_self (inert_initialization (.point span.start))
  have hreturn := hg.eq_self (inert_returnBool (.point span.stop) true)
  have hclause := hg.eq_self (inert_failureClause (.point span.stop))
  rw [fixBody, fixBody, hfixed]
  cases statements.mapM fixStatement with
  | error e => rfl
  | ok fixed =>
    simp only [Except.map, bind, Except.bind, pure, Except.pure]
    rw [hg.mk_eq rfl]
    simp only [Shape.map, Shape.mapIdx, Shape.mapIdx_const, List.map_cons, List.map_nil,
      hinitialization]
    rw [hg.mk_eq rfl]
    simp only [Shape.map, Shape.mapIdx, Shape.mapIdx_const, List.map_cons, List.map_nil, hclause]
    rw [hg.mk_eq rfl]
    simp [Shape.map, Shape.mapIdx, Shape.mapIdx_const, hreturn]

section Method

variable {span typeSpan bodySpan : Span} {modifiers : List Modifier} {name : String}
  {type : TypeName} {returnType body : Node} {parameters statements : List Node}

theorem synthesize_method :
    synthesize ⟨span, .methodDecl modifiers ⟨typeSpan, .typeRef type⟩ name parameters
      ⟨bodySpan, .block statements⟩⟩ =
      (fixBody bodySpan statements).map fun body =>
        ⟨span, .methodDecl modifiers ⟨typeSpan, .typeRef (.predefined .bool)⟩ name
          (parameters ++ [outParameter (.point (outOffset ⟨typeSpan, .typeRef type⟩ parameters))
            type]) body⟩ := by
  dsimp only [synthesize]
  cases fixBody bodySpan statements with
  | error e => rfl
  | ok body => rfl

theorem synthesize_of_not_typeRef (h : returnType.kind ≠ .typeRef) :
    synthesize ⟨span, .methodDecl modifiers returnType name parameters
      ⟨bodySpan, .block statements⟩⟩ = .error (unsupported span "return type is not a type") := by
  obtain ⟨typeSpan, typeShape⟩ := returnType
  cases typeShape with
  | typeRef => exact absurd rfl h
  | _ => rfl

theorem synthesize_of_not_block (h : body.kind ≠ .block) :
    synthesize ⟨span, .methodDecl modifiers returnType name parameters body⟩ =
      .error (unsupported span "method body is not a block") := by
  obtain ⟨bodySpan, bodyShape⟩ := body
  cases bodyShape with
  | block => exact absurd rfl h
  | _ => rfl

theorem outOffset_map (hg : IsPass g) (returnType : Node) (parameters : List Node) :
    outOffset (g returnType) (parameters.map g) = outOffset returnType parameters := by
  rw [outOffset, outOffset, List.getLast?_map]
  cases parameters.getLast? with
  | none => exact congrArg Span.stop (hg.span returnType)
  | some p => exact congrArg Span.stop (hg.span p)

theorem synthesize_mapChildren_method (hg : IsPass g)
    (hbody : ∀ s ∈ statements, s.StrictlyNested) :
    synthesize (Node.mapChildren g ⟨span, .methodDecl modifiers ⟨typeSpan, .typeRef type⟩ name
      parameters ⟨bodySpan, .block statements⟩⟩) =
      (synthesize ⟨span, .methodDecl modifiers ⟨typeSpan, .typeRef type⟩ name parameters
        ⟨bodySpan, .block statements⟩⟩).map (Node.mapChildren g) := by
  have htype (type : TypeName) : g ⟨typeSpan, .typeRef type⟩ = ⟨typeSpan, .typeRef type⟩ :=
    hg.mk_eq rfl
  have hblock : g ⟨bodySpan, .block statements⟩ = ⟨bodySpan, .block (statements.map g)⟩ := by
    rw [hg.mk_eq rfl, Shape.map, Shape.mapIdx, Shape.mapIdx_const]
  have houtOffset := outOffset_map hg ⟨typeSpan, .typeRef type⟩ parameters
  rw [htype] at houtOffset
  simp only [Node.mapChildren, Shape.map, Shape.mapIdx, Shape.mapIdx_const, htype, hblock]
  rw [synthesize_method, synthesize_method, fixBody_pass hg hbody, houtOffset]
  cases fixBody bodySpan statements with
  | error e => rfl
  | ok body =>
    have hparameter := hg.eq_self
      (inert_outParameter (.point (outOffset ⟨typeSpan, .typeRef type⟩ parameters)) type)
    simp [Except.map, Node.mapChildren, Shape.map, Shape.mapIdx, Shape.mapIdx_const, htype,
      hparameter]

end Method

theorem synthesize_mapChildren (hg : IsPass g) (hn : n.StrictlyNested) :
    synthesize (n.mapChildren g) = (synthesize n).map (Node.mapChildren g) := by
  -- A pass keeps the kinds of the body and the type, so both sides fail alike without them.
  obtain ⟨span, shape⟩ := n
  cases shape with
  | methodDecl modifiers returnType name parameters body =>
    by_cases hblock : body.kind = .block
    · obtain ⟨bodySpan, bodyShape⟩ := body
      cases bodyShape with
      | block statements =>
        by_cases htype : returnType.kind = .typeRef
        · obtain ⟨typeSpan, typeShape⟩ := returnType
          cases typeShape with
          | typeRef type =>
            have hbody := hn.child (c := ⟨bodySpan, .block statements⟩)
              (by simp [Node.children, Shape.children])
            exact synthesize_mapChildren_method hg fun s hs => hbody.child hs
          | _ => cases htype
        · rw [synthesize_of_not_typeRef htype]
          have htype' : (g returnType).kind ≠ .typeRef := by
            rwa [ne_eq, hg.kind_eq_iff (by decide) (by decide)]
          have hbody : g ⟨bodySpan, .block statements⟩ =
              ⟨bodySpan, (Shape.block statements).map g⟩ := hg.mk_eq rfl
          simp only [Node.mapChildren, Shape.map, Shape.mapIdx, hbody]
          rw [synthesize_of_not_typeRef htype']
          rfl
      | _ => cases hblock
    · have hblock' : (g body).kind ≠ .block := by
        rwa [ne_eq, hg.kind_eq_iff (by decide) (by decide)]
      simp only [Node.mapChildren, Shape.map, Shape.mapIdx]
      rw [synthesize_of_not_block hblock, synthesize_of_not_block hblock']
      rfl
  | _ => rfl

end TryMethod

/-- A fix commutes with a pass over the children. -/
theorem Node.fixed?_mapChildren (hg : IsPass g) (hn : n.StrictlyNested) :
    (n.mapChildren g).fixed? = n.fixed?.map (Node.mapChildren g) := by
  rw [Node.fixed?, Node.fixed?, Node.kind_mapChildren]
  cases hr : n.kind.rule? with
  | none => rfl
  | some r =>
    have hcommutes : r.synthesize (n.mapChildren g) =
        (r.synthesize n).map (Node.mapChildren g) := by
      rcases Registry.mem_builtin.1 (Kind.rule?_eq_some.1 hr).1 with rfl | rfl
      · exact ValueEquality.synthesize_mapChildren hg n
      · exact TryMethod.synthesize_mapChildren hg hn
    rw [Option.bind_some, Option.bind_some, hcommutes]
    cases r.synthesize n with
    | error e => rfl
    | ok m => rfl

end TreeLint
