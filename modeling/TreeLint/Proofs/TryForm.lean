import TreeLint.Proofs.FinalReturn
import TreeLint.Proofs.FirstOccurrence

namespace TreeLint

namespace Node

/-- No two returns of the tree share a span. -/
def ReturnsApart (n : Node) : Prop :=
  n.preorder.Pairwise fun a b => a.kind = .returnStmt → b.kind = .returnStmt → a.span ≠ b.span

instance : DecidablePred ReturnsApart := fun n =>
  inferInstanceAs (Decidable (n.preorder.Pairwise fun a b =>
    a.kind = .returnStmt → b.kind = .returnStmt → a.span ≠ b.span))

theorem ReturnsApart.child {c n : Node} (h : n.ReturnsApart) (hc : c ∈ n.children) :
    c.ReturnsApart :=
  pairwise_preorder_child h hc

theorem ReturnsApart.place_unique {m n : Node} {p q : Path} (h : n.ReturnsApart)
    (hm : m.kind = .returnStmt) (hp : n.subtree? p = some m) (hq : n.subtree? q = some m) : p = q :=
  place_unique_of_pairwise h (fun hne => hne hm hm rfl) hp hq

end Node

namespace TryMethod

variable {span place : Span} {condition thenBranch target new s t value : Node}
  {elseBranch result : Option Node} {context : Node → Node}

/-- `value = e;` in the place of a return with this span. -/
def assigned (span : Span) (e : Node) : Node :=
  ⟨span, .exprStmt ⟨span, .assignment ⟨.point span.start, .identifier "value"⟩ e⟩⟩

/-- What becomes of a statement of the body. -/
inductive Rewritten : Node → Node → Prop where
  | returned {span : Span} {e : Node} :
      Rewritten ⟨span, .returnStmt (some e)⟩ (assigned span e)
  | returnedInside {span place : Span} {e condition thenBranch : Node} {elseBranch : Option Node}
      {context : Node → Node}
      (h : LastReturn ⟨place, .returnStmt (some e)⟩ thenBranch context) :
      Rewritten ⟨span, .ifStmt condition thenBranch elseBranch⟩
        ⟨span, .ifStmt condition (context (assigned place e)) elseBranch⟩
  | withoutReturn {span : Span} {condition thenBranch : Node} {elseBranch : Option Node}
      (h : ∀ target context, ¬ LastReturn target thenBranch context) :
      Rewritten ⟨span, .ifStmt condition thenBranch elseBranch⟩
        ⟨span, .ifStmt condition thenBranch elseBranch⟩
  | other {s : Node} (hreturn : s.kind ≠ .returnStmt) (hif : s.kind ≠ .ifStmt) : Rewritten s s

/-- The statement is a bare return, or an `if` in which the return that is rewritten is bare. -/
inductive Bare : Node → Prop where
  | returned {span : Span} : Bare ⟨span, .returnStmt none⟩
  | inside {span place : Span} {condition thenBranch : Node} {elseBranch : Option Node}
      {context : Node → Node} (h : LastReturn ⟨place, .returnStmt none⟩ thenBranch context) :
      Bare ⟨span, .ifStmt condition thenBranch elseBranch⟩

/-- No other return has its span, so that it is the one that a substitution finds. -/
theorem LastReturn.substitute (h : LastReturn target thenBranch context)
    (hs : (⟨span, .ifStmt condition thenBranch elseBranch⟩ : Node).Contained)
    (hreturns : (⟨span, .ifStmt condition thenBranch elseBranch⟩ : Node).ReturnsApart)
    (hkind : target.kind = .returnStmt) (hnew : new.category = .statement) :
    (⟨span, .ifStmt condition thenBranch elseBranch⟩ : Node).substitute target new =
      .ok ⟨span, .ifStmt condition (context new) elseBranch⟩ := by
  obtain ⟨p, hp, hreplace⟩ := h.exists_place _ _ _
  have hcategory : target.category = new.category := by
    rw [hnew, Node.category, hkind]
    rfl
  obtain ⟨q, hq⟩ := hs.exists_pathTo? (Node.mem_preorder_of_subtree? hp)
  obtain rfl : p = q := hreturns.place_unique hkind hp (Node.subtree?_of_pathTo? hq)
  exact Node.substitute_of_pathTo? hcategory hq (hreplace new)

theorem fixIf_of_lastReturn (h : LastReturn target thenBranch context)
    (hshape : target.shape = .returnStmt result)
    (hs : (⟨span, .ifStmt condition thenBranch elseBranch⟩ : Node).Contained)
    (hreturns : (⟨span, .ifStmt condition thenBranch elseBranch⟩ : Node).ReturnsApart) :
    fixIf ⟨span, .ifStmt condition thenBranch elseBranch⟩ thenBranch =
      (assignment target.span result).map fun new =>
        ⟨span, .ifStmt condition (context new) elseBranch⟩ := by
  have hkind : target.kind = .returnStmt := by
    rw [Node.kind, hshape]
    rfl
  exact fixIf_of_substitute (h.finalReturn?_eq hshape) fun _ => h.substitute hs hreturns hkind

theorem LastReturn.exists_value (h : LastReturn target thenBranch context) :
    ∃ value, target.shape = .returnStmt value := by
  have hkind : target.kind = .returnStmt := by
    cases h with
    | branch h => exact h
    | block h => exact h
  obtain ⟨span, shape⟩ := target
  cases shape with
  | returnStmt value => exact ⟨value, rfl⟩
  | _ => cases hkind

theorem finalReturn?_eq_none_iff : finalReturn? thenBranch = none ↔
    ∀ target context, ¬ LastReturn target thenBranch context := by
  constructor
  · intro hnone target context h
    obtain ⟨value, hshape⟩ := h.exists_value
    rw [h.finalReturn?_eq hshape] at hnone
    cases hnone
  · intro h
    cases hfinal : finalReturn? thenBranch with
    | none => rfl
    | some r =>
      obtain ⟨context, hlast⟩ := exists_lastReturn hfinal
      exact absurd hlast (h r.1 context)

theorem rewritten_of_fixStatement (hs : s.Contained) (hreturns : s.ReturnsApart)
    (h : fixStatement s = .ok t) : Rewritten s t := by
  obtain ⟨span, shape⟩ := s
  cases shape with
  | returnStmt value =>
    cases value with
    | none => cases h
    | some e =>
      cases h
      exact .returned
  | ifStmt condition thenBranch elseBranch =>
    change fixIf _ thenBranch = .ok t at h
    cases hfinal : finalReturn? thenBranch with
    | none =>
      rw [fixIf, hfinal] at h
      cases h
      exact .withoutReturn (finalReturn?_eq_none_iff.1 hfinal)
    | some r =>
      obtain ⟨⟨place, shape⟩, value⟩ := r
      obtain ⟨context, hlast⟩ := exists_lastReturn hfinal
      have hshape := finalReturn?_eq_some hfinal
      rw [fixIf_of_lastReturn hlast hshape hs hreturns] at h
      dsimp only at hshape
      subst hshape
      cases value with
      | none => cases h
      | some e =>
        cases h
        exact .returnedInside hlast
  | _ =>
    cases h
    exact .other Kind.noConfusion Kind.noConfusion

theorem Rewritten.fixStatement_eq (h : Rewritten s t) (hs : s.Contained)
    (hreturns : s.ReturnsApart) : fixStatement s = .ok t := by
  cases h with
  | returned => rfl
  | returnedInside hlast =>
    change fixIf _ _ = _
    rw [fixIf_of_lastReturn hlast rfl hs hreturns]
    rfl
  | withoutReturn hnone =>
    change fixIf _ _ = _
    rw [fixIf, finalReturn?_eq_none_iff.2 hnone]
  | other hreturn hif =>
    obtain ⟨span, shape⟩ := s
    cases shape with
    | returnStmt => exact absurd rfl hreturn
    | ifStmt => exact absurd rfl hif
    | _ => rfl

theorem exists_rewritten_iff : (∃ t, Rewritten s t) ↔ ¬ Bare s := by
  constructor
  · rintro ⟨t, h⟩ hbare
    cases h with
    | returned => cases hbare
    | returnedInside h =>
      cases hbare with
      | inside hnone =>
        have hvalue := (h.finalReturn?_eq rfl).symm.trans (hnone.finalReturn?_eq rfl)
        cases hvalue
    | withoutReturn h =>
      cases hbare with
      | inside hnone => exact h _ _ hnone
    | other hreturn hif =>
      cases hbare with
      | returned => exact hreturn rfl
      | inside => exact hif rfl
  · intro h
    obtain ⟨span, shape⟩ := s
    cases shape with
    | returnStmt value =>
      cases value with
      | none => exact absurd .returned h
      | some e => exact ⟨_, .returned⟩
    | ifStmt condition thenBranch elseBranch =>
      by_cases hlast : ∃ target context, LastReturn target thenBranch context
      · obtain ⟨⟨place, shape⟩, context, hlast⟩ := hlast
        obtain ⟨value, hshape⟩ := hlast.exists_value
        dsimp only at hshape
        subst hshape
        cases value with
        | none => exact absurd (.inside hlast) h
        | some e => exact ⟨_, .returnedInside hlast⟩
      · exact ⟨_, .withoutReturn fun target context h => hlast ⟨target, context, h⟩⟩
    | _ => exact ⟨_, .other Kind.noConfusion Kind.noConfusion⟩

theorem fixStatement_eq_ok_iff (hs : s.Contained) (hreturns : s.ReturnsApart) :
    fixStatement s = .ok t ↔ Rewritten s t :=
  ⟨rewritten_of_fixStatement hs hreturns, fun h => h.fixStatement_eq hs hreturns⟩

/-- The method

    bool Name(…, out T value)
    { value = default; try { …; return true; } catch (Exception e) { return false; } }

with these statements in the `try`, put in the place of a method `T Name(…)`. What is new has no text
of its own: it stands behind the last parameter and at the ends of the body. -/
def methodForm (span : Span) (modifiers : List Modifier) (returnType : Node) (type : TypeName)
    (name : String) (parameters : List Node) (body : Span) (statements : List Node) : Node :=
  let place := Span.point (outOffset returnType parameters)
  let start := Span.point body.start
  let stop := Span.point body.stop
  let returning (value : Bool) : Node :=
    ⟨stop, .returnStmt (some ⟨stop, .literal (.bool value)⟩)⟩
  let initial : Node :=
    ⟨start, .exprStmt ⟨start, .assignment ⟨start, .identifier "value"⟩ ⟨start, .literal .default⟩⟩⟩
  let failing : Node :=
    ⟨stop, .catchClause (some ⟨stop, .typeRef (.named "Exception")⟩) (some "e")
      ⟨stop, .block [returning false]⟩⟩
  ⟨span, .methodDecl modifiers ⟨returnType.span, .typeRef (.predefined .bool)⟩ name
    (parameters ++ [⟨place, .parameter (some .out) ⟨place, .typeRef type⟩ "value"⟩])
    ⟨body, .block [initial, ⟨body, .tryStmt ⟨body, .block (statements ++ [returning true])⟩
      [failing] none⟩]⟩⟩

theorem synthesize_eq_map {modifiers : List Modifier} {returnType body : Node} {name : String}
    {parameters statements : List Node} {type : TypeName} (hbody : body.shape = .block statements)
    (htype : returnType.shape = .typeRef type) :
    synthesize ⟨span, .methodDecl modifiers returnType name parameters body⟩ =
      (statements.mapM fixStatement).map
        (methodForm span modifiers returnType type name parameters body.span) := by
  rw [synthesize]
  dsimp only
  rw [hbody, htype]
  dsimp only [fixBody]
  cases statements.mapM fixStatement with
  | error e => rfl
  | ok fixed => rfl

theorem synthesize_eq_ok_iff {modifiers : List Modifier} {returnType body m : Node} {name : String}
    {parameters : List Node} :
    synthesize ⟨span, .methodDecl modifiers returnType name parameters body⟩ = .ok m ↔
      ∃ statements type fixed, body.shape = .block statements ∧
        returnType.shape = .typeRef type ∧ statements.mapM fixStatement = .ok fixed ∧
        m = methodForm span modifiers returnType type name parameters body.span fixed := by
  constructor
  · intro h
    cases becomes_of_synthesize h with
    | @method _ _ _ _ type _ _ statements _ hbody =>
      obtain ⟨fixed, hfixed, hbody⟩ := bind_eq_ok.1 hbody
      cases hbody
      exact ⟨statements, type, fixed, rfl, rfl, hfixed, rfl⟩
  · rintro ⟨statements, type, fixed, hbody, htype, hfixed, rfl⟩
    rw [synthesize_eq_map hbody htype, hfixed]
    rfl

theorem mapM_fixStatement_eq_ok_iff {statements fixed : List Node}
    (hs : ∀ s ∈ statements, s.Contained ∧ s.ReturnsApart) :
    statements.mapM fixStatement = .ok fixed ↔ List.Forall₂ Rewritten statements fixed := by
  rw [mapM_eq_ok]
  induction statements generalizing fixed with
  | nil => rw [List.forall₂_nil_left_iff, List.forall₂_nil_left_iff]
  | cons s statements ih =>
    obtain ⟨⟨hcontained, hreturns⟩, hrest⟩ := List.forall_mem_cons.1 hs
    rw [List.forall₂_cons_left_iff, List.forall₂_cons_left_iff]
    simp only [ih hrest, fixStatement_eq_ok_iff hcontained hreturns]

theorem exists_forall₂_rewritten_iff {statements : List Node} :
    (∃ fixed, List.Forall₂ Rewritten statements fixed) ↔ ∀ s ∈ statements, ¬ Bare s := by
  rw [exists_forall₂_iff]
  exact forall₂_congr fun s _ => exists_rewritten_iff

/-- A method is fixed exactly when its body is a block, its return type is a type, and no return
that is to be rewritten is bare. Then it has the form of a fixed method, with its statements
rewritten one by one. -/
theorem synthesize_methodDecl {n returnType body : Node} {modifiers : List Modifier} {name : String}
    {parameters : List Node} (hn : n.shape = .methodDecl modifiers returnType name parameters body)
    (hcontained : n.Contained) (hreturns : n.ReturnsApart) :
    ((∃ m, synthesize n = .ok m) ↔ ∃ statements type, body.shape = .block statements ∧
      returnType.shape = .typeRef type ∧ ∀ s ∈ statements, ¬ Bare s) ∧
    ∀ m, synthesize n = .ok m → ∃ statements type fixed, body.shape = .block statements ∧
      returnType.shape = .typeRef type ∧ List.Forall₂ Rewritten statements fixed ∧
      m = methodForm n.span modifiers returnType type name parameters body.span fixed := by
  obtain ⟨span, shape⟩ := n
  dsimp only at hn
  subst hn
  have hstatements {statements : List Node} (hbody : body.shape = .block statements) :
      ∀ s ∈ statements, s.Contained ∧ s.ReturnsApart := by
    intro s hs
    have hchild : s ∈ body.children := by rwa [Node.children, hbody]
    exact ⟨(hcontained.child body_mem_children).child hchild,
      (hreturns.child body_mem_children).child hchild⟩
  refine ⟨⟨?_, ?_⟩, ?_⟩
  · rintro ⟨m, hm⟩
    obtain ⟨statements, type, fixed, hbody, htype, hfixed, -⟩ := synthesize_eq_ok_iff.1 hm
    rw [mapM_fixStatement_eq_ok_iff (hstatements hbody)] at hfixed
    exact ⟨statements, type, hbody, htype, exists_forall₂_rewritten_iff.1 ⟨fixed, hfixed⟩⟩
  · rintro ⟨statements, type, hbody, htype, hbare⟩
    obtain ⟨fixed, hfixed⟩ := exists_forall₂_rewritten_iff.2 hbare
    rw [← mapM_fixStatement_eq_ok_iff (hstatements hbody)] at hfixed
    exact ⟨_, synthesize_eq_ok_iff.2 ⟨statements, type, fixed, hbody, htype, hfixed, rfl⟩⟩
  · intro m hm
    obtain ⟨statements, type, fixed, hbody, htype, hfixed, rfl⟩ := synthesize_eq_ok_iff.1 hm
    rw [mapM_fixStatement_eq_ok_iff (hstatements hbody)] at hfixed
    exact ⟨statements, type, fixed, hbody, htype, hfixed, rfl⟩

/-- The statements of the body `{ if (a) { return b; return c; } return d; }`. -/
def returningTwice : List Node :=
  [⟨⟨15, 48⟩, .ifStmt ⟨⟨19, 20⟩, .identifier "a"⟩
    ⟨⟨22, 48⟩, .block [⟨⟨24, 33⟩, .returnStmt (some ⟨⟨31, 32⟩, .identifier "b"⟩)⟩,
      ⟨⟨34, 43⟩, .returnStmt (some ⟨⟨41, 42⟩, .identifier "c"⟩)⟩]⟩ none⟩,
    ⟨⟨49, 58⟩, .returnStmt (some ⟨⟨56, 57⟩, .identifier "d"⟩)⟩]

theorem synthesize_methodDecl_returningTwice :
    let type : Node := ⟨⟨0, 3⟩, .typeRef (.predefined .int)⟩
    let n : Node := ⟨⟨0, 60⟩, .methodDecl [] type "TryGet" [] ⟨⟨13, 60⟩, .block returningTwice⟩⟩
    n.Contained ∧ n.ReturnsApart ∧ ∃ m fixed, synthesize n = .ok m ∧
      List.Forall₂ Rewritten returningTwice fixed ∧
      m = methodForm ⟨0, 60⟩ [] type (.predefined .int) "TryGet" [] ⟨13, 60⟩ fixed := by
  intro type n
  have hcontained : n.Contained := by decide +kernel
  have hreturns : n.ReturnsApart := by decide +kernel
  have hform := synthesize_methodDecl (n := n) rfl hcontained hreturns
  have hbare : ∀ s ∈ returningTwice, ¬ Bare s := by
    refine List.forall_mem_cons.2 ⟨?_, List.forall_mem_singleton.2 ?_⟩
    · rw [← exists_rewritten_iff]
      exact ⟨_, .returnedInside (@LastReturn.block _ _ [_] [] rfl (List.forall_mem_nil _))⟩
    · rw [← exists_rewritten_iff]
      exact ⟨_, .returned⟩
  obtain ⟨m, hm⟩ := hform.1.2 ⟨returningTwice, .predefined .int, rfl, rfl, hbare⟩
  obtain ⟨statements, name, fixed, hbody, hname, hfixed, rfl⟩ := hform.2 m hm
  cases hbody
  cases hname
  exact ⟨hcontained, hreturns, _, fixed, hm, hfixed, rfl⟩

end TryMethod

end TreeLint
