import TreeLint.Proofs.Passes

namespace TreeLint

variable {α : Type} {R : Node → List α}

/-- A list read off a tree that comes from the children of every node at which no built-in rule
looks. -/
def ReadsThrough (R : Node → List α) : Prop := ∀ n, ¬ n.isSite → R n = n.children.flatMap R

namespace ReadsThrough

variable {n : Node}

theorem mk_eq (hR : ReadsThrough R) {span : Span} {shape : Shape Node}
    (h : shape.kind.rule? = none) : R ⟨span, shape⟩ = shape.children.flatMap R := by
  apply hR ⟨span, shape⟩
  rw [Node.isSite, Node.kind, h]
  exact Bool.false_ne_true

theorem eq_nil (hR : ReadsThrough R) (hn : n.Inert) : R n = [] := by
  induction n using Node.induction_children with
  | h n ih =>
    rw [hR n hn.self]
    exact List.flatMap_eq_nil_iff.2 fun c hc => ih c hc (hn.child hc)

end ReadsThrough

namespace ValueEquality

theorem reads_patternFor? (hR : ReadsThrough R) {op : Operator} {right pattern : Node}
    (h : patternFor? op right = some pattern) : R pattern = R right := by
  have hconstant : R ⟨right.span, .constantPattern right⟩ = R right := by
    rw [hR.mk_eq rfl, Shape.children, List.flatMap_singleton]
  cases op with
  | equals =>
    cases h
    exact hconstant
  | notEquals =>
    cases h
    rw [hR.mk_eq rfl, Shape.children, List.flatMap_singleton, hconstant]
  | _ => cases h

theorem reads_children (hR : ReadsThrough R) {n m : Node} (h : synthesize n = .ok m) :
    m.children.flatMap R = n.children.flatMap R := by
  cases becomes_of_synthesize h with
  | pattern hpattern =>
    simp only [Node.children, Shape.children, List.flatMap_cons, reads_patternFor? hR hpattern]

end ValueEquality

namespace TryMethod

variable {span : Span} {n new : Node}

theorem reads_assignment (hR : ReadsThrough R) {value : Option Node}
    (hshape : n.shape = .returnStmt value) (h : assignment span value = .ok new) :
    R new = R n := by
  obtain ⟨nodeSpan, shape⟩ := n
  cases hshape
  cases value with
  | none => cases h
  | some value =>
    cases h
    rw [hR.mk_eq rfl, Shape.children, List.flatMap_singleton, hR.mk_eq rfl, Shape.children,
      List.flatMap_cons, hR.mk_eq rfl, Shape.children, List.flatMap_nil, List.nil_append,
      List.flatMap_singleton, hR.mk_eq rfl, Shape.children, Option.toList_some,
      List.flatMap_singleton]

theorem FinalReturn.reads {target thenBranch : Node} {context : Node → Node}
    (h : FinalReturn target thenBranch context) (hR : ReadsThrough R) (hnew : R new = R target) :
    R (context new) = R thenBranch := by
  cases h with
  | self => exact hnew
  | last =>
    rw [hR.mk_eq rfl, hR.mk_eq rfl]
    simp only [Shape.children, List.flatMap_append, List.flatMap_cons, hnew]

theorem reads_fixIf (hR : ReadsThrough R) {condition thenBranch : Node} {elseBranch : Option Node}
    (hn : (⟨span, .ifStmt condition thenBranch elseBranch⟩ : Node).StrictlyNested)
    (h : fixIf ⟨span, .ifStmt condition thenBranch elseBranch⟩ thenBranch = .ok new) :
    R new = R ⟨span, .ifStmt condition thenBranch elseBranch⟩ := by
  cases hfinal : finalReturn? thenBranch with
  | none =>
    rw [fixIf, hfinal] at h
    cases h
    rfl
  | some p =>
    obtain ⟨target, value⟩ := p
    obtain ⟨context, hcontext, hcondition⟩ := exists_finalReturn_of_ifStmt hn hfinal
    rw [fixIf_eq hfinal hcontext hcondition] at h
    cases hassigned : assignment target.span value with
    | error e =>
      rw [hassigned] at h
      cases h
    | ok assigned =>
      rw [hassigned] at h
      cases h
      have htarget := reads_assignment hR (finalReturn?_eq_some hfinal) hassigned
      rw [hR.mk_eq rfl, hR.mk_eq rfl]
      simp only [Shape.children, List.flatMap_cons, hcontext.reads hR htarget]

theorem reads_fixStatement (hR : ReadsThrough R) (hn : n.StrictlyNested)
    (h : fixStatement n = .ok new) : R new = R n := by
  obtain ⟨span, shape⟩ := n
  cases shape with
  | returnStmt value => exact reads_assignment hR rfl h
  | ifStmt condition thenBranch elseBranch => exact reads_fixIf hR hn h
  | _ =>
    cases h
    rfl

theorem reads_fixBody (hR : ReadsThrough R) {statements : List Node} {body : Node}
    (hstatements : ∀ s ∈ statements, s.StrictlyNested)
    (h : fixBody span statements = .ok body) : R body = statements.flatMap R := by
  rw [fixBody, bind_eq_ok] at h
  obtain ⟨fixed, hfixed, h⟩ := h
  cases h
  have hkept : fixed.flatMap R = statements.flatMap R := by
    have hall := mapM_eq_ok.1 hfixed
    clear hfixed
    induction hall with
    | nil => rfl
    | cons hs _ ih =>
      rw [List.flatMap_cons, List.flatMap_cons,
        reads_fixStatement hR (hstatements _ List.mem_cons_self) hs,
        ih fun s hs => hstatements s (List.mem_cons_of_mem _ hs)]
  rw [hR.mk_eq rfl, Shape.children, List.flatMap_cons, List.flatMap_singleton,
    hR.eq_nil (inert_initialization _), List.nil_append, hR.mk_eq rfl, Shape.children,
    List.flatMap_cons, Option.toList_none, List.append_nil, List.flatMap_singleton,
    hR.eq_nil (inert_failureClause _), List.append_nil, hR.mk_eq rfl, Shape.children,
    List.flatMap_append, List.flatMap_singleton, hR.eq_nil (inert_returnBool _ _),
    List.append_nil, hkept]

theorem reads_children (hR : ReadsThrough R) {m : Node} (hn : n.StrictlyNested)
    (h : synthesize n = .ok m) : m.children.flatMap R = n.children.flatMap R := by
  cases becomes_of_synthesize h with
  | @method span typeSpan bodySpan _ type _ _ statements _ hnew =>
    have hbody := hn.child (c := ⟨bodySpan, .block statements⟩)
      (by simp [Node.children, Shape.children])
    have hkept := reads_fixBody hR (fun s hs => hbody.child hs) hnew
    have htypes (type : TypeName) : R ⟨typeSpan, .typeRef type⟩ = [] := hR.mk_eq rfl
    have hblock : R ⟨bodySpan, .block statements⟩ = statements.flatMap R := hR.mk_eq rfl
    simp [Node.children, Shape.children, htypes, hR.eq_nil (inert_outParameter _ _), hkept, hblock]

end TryMethod

theorem Node.reads_children_of_fixed? (hR : ReadsThrough R) {n m : Node} (hn : n.StrictlyNested)
    (h : n.fixed? = some m) : m.children.flatMap R = n.children.flatMap R := by
  obtain ⟨r, hr, -, hm⟩ := fixed?_eq_some.1 h
  rcases Registry.mem_builtin.1 hr with rfl | rfl
  · exact ValueEquality.reads_children hR hm
  · exact TryMethod.reads_children hR hn hm

end TreeLint
