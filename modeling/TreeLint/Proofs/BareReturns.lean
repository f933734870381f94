import TreeLint.Proofs.ReportedFixes
import TreeLint.Proofs.TryForm

namespace TreeLint

theorem map_eq_of_mapM {ε α β : Type} {f : α → Except ε α} {g : α → β} {xs ys : List α}
    (hstep : ∀ x y, f x = .ok y → g y = g x) (h : xs.mapM f = .ok ys) : ys.map g = xs.map g := by
  induction mapM_eq_ok.1 h with
  | nil => rfl
  | cons hxy hrest ih =>
    rw [List.map_cons, List.map_cons, hstep _ _ hxy, ih (mapM_eq_ok.2 hrest)]

namespace TryMethod

variable {branch m n new r s t target : Node} {behind ns statements : List Node}
  {value : Option Node} {p : Path} {e : RuleError}

/-- A `return;` without a value. -/
def isBare (n : Node) : Bool :=
  match n.shape with
  | .returnStmt none => true
  | _ => false

/-- The statements of a branch: those of its block, or the branch itself. -/
def branchStatements (branch : Node) : List Node :=
  match branch.shape with
  | .block statements => statements
  | _ => [branch]

/-- Where the fix of a statement looks for its return. -/
def lookedAt (statement : Node) : List Node :=
  match statement.shape with
  | .ifStmt _ thenBranch _ => branchStatements thenBranch
  | _ => [statement]

def bareReturns (statement : Node) : List Node := (lookedAt statement).filter isBare

/-- Each bare return that the fix looks at has a returned value behind it. -/
def PassedOver (statement : Node) : Prop :=
  ∀ r behind, r :: behind <:+ lookedAt statement → isBare r →
    ∃ t ∈ behind, ∃ e, t.shape = .returnStmt (some e)

def lastReturn? (ns : List Node) : Option (Node × Option Node) :=
  ns.reverse.findSome? fun n => (returned? n).map (n, ·)

theorem isBare_iff : isBare n ↔ n.shape = .returnStmt none := by
  rw [isBare]
  split <;> simp_all

theorem shape_of_lastReturn? (h : lastReturn? ns = some (t, value)) :
    t ∈ ns ∧ t.shape = .returnStmt value := by
  obtain ⟨n, hn, h⟩ := List.exists_of_findSome?_eq_some h
  obtain ⟨v, hv, he⟩ := Option.map_eq_some_iff.1 h
  cases he
  exact ⟨List.mem_reverse.1 hn, returned?_eq_some.1 hv⟩

theorem lastReturn?_singleton (n : Node) : lastReturn? [n] = (returned? n).map (n, ·) := by
  rw [lastReturn?, List.reverse_singleton, List.findSome?_singleton]

theorem finalReturn?_eq_lastReturn? (branch : Node) :
    finalReturn? branch = lastReturn? (branchStatements branch) := by
  obtain ⟨span, shape⟩ := branch
  cases shape with
  | block statements => rfl
  | _ => rfl

theorem lastReturn?_of_suffix (h : r :: behind <:+ ns) (hr : isBare r) :
    lastReturn? ns = (lastReturn? behind).or (some (r, none)) := by
  obtain ⟨before, rfl⟩ := h
  have hreturned : returned? r = some none := returned?_eq_some.2 (isBare_iff.1 hr)
  rw [lastReturn?, List.reverse_append, List.reverse_cons, List.append_assoc, List.findSome?_append,
    List.findSome?_append, List.findSome?_singleton, hreturned]
  rfl

theorem passedOver_iff : PassedOver s ↔ ∀ r, lastReturn? (lookedAt s) ≠ some (r, none) := by
  constructor
  · intro h r hlast
    obtain ⟨as, n, bs, hsplit, hn, has⟩ := List.findSome?_eq_some_iff.1 hlast
    obtain ⟨v, -, he⟩ := Option.map_eq_some_iff.1 hn
    cases he
    have hsuffix : r :: as.reverse <:+ lookedAt s := by
      refine ⟨bs.reverse, ?_⟩
      rw [← List.reverse_reverse (lookedAt s), hsplit]
      simp
    obtain ⟨t, ht, value, hvalue⟩ := h r as.reverse hsuffix
      (isBare_iff.2 (shape_of_lastReturn? hlast).2)
    have hnone := has t (List.mem_reverse.1 ht)
    rw [returned?_eq_some.2 hvalue] at hnone
    cases hnone
  · intro h r behind hsuffix hr
    have hlast := lastReturn?_of_suffix hsuffix hr
    cases hbehind : lastReturn? behind with
    | none =>
      rw [hbehind, Option.none_or] at hlast
      exact absurd hlast (h r)
    | some found =>
      obtain ⟨t, value⟩ := found
      rw [hbehind, Option.some_or] at hlast
      obtain ⟨ht, hshape⟩ := shape_of_lastReturn? hbehind
      cases value with
      | none => exact absurd hlast (h t)
      | some value => exact ⟨t, ht, value, hshape⟩

/-- A statement is refused when the last return that the fix looks at is bare. -/
theorem fixStatement_eq_error_iff (hs : s.Contained) : fixStatement s = .error e ↔
    ∃ r, lastReturn? (lookedAt s) = some (r, none) ∧
      e = unsupported r.span "return without a value" := by
  obtain ⟨span, shape⟩ := s
  cases shape with
  | returnStmt value =>
    change assignment span value = .error e ↔ ∃ r, lastReturn? [_] = some (r, none) ∧ _
    rw [lastReturn?_singleton]
    constructor
    · intro h
      obtain ⟨rfl, he⟩ := assignment_eq_error h
      exact ⟨_, rfl, he⟩
    · rintro ⟨r, hr, rfl⟩
      cases hr
      rfl
  | ifStmt condition thenBranch elseBranch =>
    change fixIf _ thenBranch = .error e ↔
      ∃ r, lastReturn? (branchStatements thenBranch) = some (r, none) ∧ _
    rw [← finalReturn?_eq_lastReturn?]
    constructor
    · intro h
      exact fixIf_eq_error hs h
    · rintro ⟨r, hr, rfl⟩
      rw [fixIf, hr]
      rfl
  | _ =>
    refine iff_of_false (fun h => ?_) ?_
    · cases h
    · rintro ⟨r, hr, -⟩
      cases hr

theorem exists_fixStatement_iff (hs : s.Contained) : (∃ t, fixStatement s = .ok t) ↔ PassedOver s := by
  rw [passedOver_iff]
  constructor
  · rintro ⟨t, ht⟩ r hr
    rw [(fixStatement_eq_error_iff hs).2 ⟨r, hr, rfl⟩] at ht
    cases ht
  · intro h
    cases hfix : fixStatement s with
    | ok t => exact ⟨t, rfl⟩
    | error e =>
      obtain ⟨r, hr, -⟩ := (fixStatement_eq_error_iff hs).1 hfix
      exact absurd hr (h r)

theorem exists_mapM_fixStatement_iff (hstatements : ∀ s ∈ statements, s.Contained) :
    (∃ fixed, statements.mapM fixStatement = .ok fixed) ↔ ∀ s ∈ statements, PassedOver s := by
  simp only [mapM_eq_ok]
  rw [exists_forall₂_iff]
  exact forall₂_congr fun s hs => exists_fixStatement_iff (hstatements s hs)

theorem isBare_congr (h : m.shape.form = n.shape.form) : isBare m = isBare n := by
  have hform (n : Node) : isBare n ↔ n.shape.form = .returnStmt none := by
    obtain ⟨span, shape⟩ := n
    cases shape with
    | returnStmt value =>
      cases value with
      | none => exact iff_of_true rfl rfl
      | some e => exact iff_of_false Bool.noConfusion fun h => by cases h
    | _ => exact iff_of_false Bool.noConfusion fun h => by cases h
  rw [Bool.eq_iff_iff, hform, hform, h]

theorem isBare_eq_false_of_subtree? (hm : n.subtree? p = some target)
    (htarget : isBare target = false) : isBare n = false := by
  cases p with
  | nil =>
    cases hm
    exact htarget
  | cons i p =>
    obtain ⟨c, hc, -⟩ := Option.bind_eq_some_iff.1 hm
    rw [← Bool.not_eq_true]
    intro hbare
    rw [Node.children, isBare_iff.1 hbare] at hc
    cases hc

theorem isBare_replace? (hm : n.subtree? p = some target) (htarget : isBare target = false)
    (hnew : isBare new = false) (hr : n.replace? p new = some r) : isBare r = false := by
  cases p with
  | nil =>
    cases hr
    exact hnew
  | cons i p =>
    rw [Node.replace?_cons, Option.bind_eq_some_iff] at hr
    obtain ⟨c, -, hr⟩ := hr
    obtain ⟨d, -, hr⟩ := Option.bind_eq_some_iff.1 hr
    rw [isBare_congr (Node.withChild?_eq_some hr).2.1]
    exact isBare_eq_false_of_subtree? hm htarget

theorem filter_set_of_not {test : Node → Bool} {i : Nat} {c d : Node} (hc : ns[i]? = some c)
    (hctest : test c = false) (hdtest : test d = false) :
    (ns.set i d).filter test = ns.filter test := by
  obtain ⟨hi, hget⟩ := List.getElem?_eq_some_iff.1 hc
  obtain ⟨as, bs, hsplit, -, hset⟩ := @List.exists_of_set Node i d ns hi
  rw [hset, hsplit, hget, List.filter_append, List.filter_append, List.filter_cons_of_neg,
    List.filter_cons_of_neg]
  · exact Bool.not_eq_true _ ▸ hctest
  · exact Bool.not_eq_true _ ▸ hdtest

theorem branchStatements_of_block (h : branch.kind = .block) :
    branchStatements branch = branch.children := by
  obtain ⟨span, shape⟩ := branch
  cases shape with
  | block statements => rfl
  | _ => cases h

theorem branchStatements_of_kind_ne (h : branch.kind ≠ .block) : branchStatements branch = [branch] := by
  obtain ⟨span, shape⟩ := branch
  cases shape with
  | block statements => exact absurd rfl h
  | _ => rfl

theorem filter_singleton_of_not (h : isBare n = false) : [n].filter isBare = [] := by
  rw [List.filter_cons_of_neg (Bool.not_eq_true _ ▸ h), List.filter_nil]

theorem filter_branchStatements (hm : branch.subtree? p = some target)
    (htarget : isBare target = false ∧ target.kind ≠ .block)
    (hnew : isBare new = false ∧ new.kind ≠ .block) (hr : branch.replace? p new = some r) :
    (branchStatements r).filter isBare = (branchStatements branch).filter isBare := by
  have hbranch := isBare_eq_false_of_subtree? hm htarget.1
  have hresult := isBare_replace? hm htarget.1 hnew.1 hr
  cases p with
  | nil =>
    cases hm
    cases hr
    rw [branchStatements_of_kind_ne htarget.2, branchStatements_of_kind_ne hnew.2,
      filter_singleton_of_not hbranch, filter_singleton_of_not hresult]
  | cons i p =>
    obtain ⟨c, hc, hm⟩ := Option.bind_eq_some_iff.1 hm
    rw [Node.replace?_cons, hc, Option.bind_some, Option.bind_eq_some_iff] at hr
    obtain ⟨d, hd, hr⟩ := hr
    obtain ⟨-, hform, hchildren⟩ := Node.withChild?_eq_some hr
    have hkind : r.kind = branch.kind := Node.kind_eq_of_form_eq hform
    by_cases hblock : branch.kind = .block
    · rw [branchStatements_of_block hblock, branchStatements_of_block (hkind.trans hblock), hchildren]
      exact filter_set_of_not hc (isBare_eq_false_of_subtree? hm htarget.1)
        (isBare_replace? hm htarget.1 hnew.1 hd)
    · rw [branchStatements_of_kind_ne hblock, branchStatements_of_kind_ne (hkind ▸ hblock),
        filter_singleton_of_not hbranch, filter_singleton_of_not hresult]

theorem lookedAt_of_ifStmt (h : s.kind = .ifStmt) :
    ∃ branch, s.children[1]? = some branch ∧ lookedAt s = branchStatements branch := by
  obtain ⟨span, shape⟩ := s
  cases shape with
  | ifStmt condition thenBranch elseBranch => exact ⟨thenBranch, rfl, rfl⟩
  | _ => cases h

theorem not_bare_of_assignment (hshape : target.shape = .returnStmt value)
    (hnew : assignment target.span value = .ok new) :
    (isBare target = false ∧ target.kind ≠ .block) ∧ isBare new = false ∧ new.kind ≠ .block := by
  cases value with
  | none => cases hnew
  | some e =>
    cases hnew
    rw [isBare, Node.kind, hshape]
    exact ⟨⟨rfl, Kind.noConfusion⟩, rfl, Kind.noConfusion⟩

theorem IfBecomes.bareReturns_eq (h : IfBecomes s t) (hs : s.kind = .ifStmt) :
    bareReturns t = bareReturns s := by
  cases h with
  | unchanged => rfl
  | @assigned p target new t value hm hshape hnew hr =>
    obtain ⟨htarget, hassigned⟩ := not_bare_of_assignment hshape hnew
    cases p with
    | nil =>
      cases hm
      rw [Node.kind, hshape] at hs
      cases hs
    | cons i p =>
      obtain ⟨c, hc, hbelow⟩ := Option.bind_eq_some_iff.1 hm
      rw [Node.replace?_cons, hc, Option.bind_some, Option.bind_eq_some_iff] at hr
      obtain ⟨d, hd, hr⟩ := hr
      obtain ⟨-, hform, hchildren⟩ := Node.withChild?_eq_some hr
      obtain ⟨branch, hbranch, hlooked⟩ := lookedAt_of_ifStmt hs
      obtain ⟨branch', hbranch', hlooked'⟩ :=
        lookedAt_of_ifStmt ((Node.kind_eq_of_form_eq hform).trans hs)
      rw [bareReturns, bareReturns, hlooked, hlooked']
      rw [hchildren] at hbranch'
      by_cases hi : i = 1
      · subst hi
        obtain rfl : c = branch := Option.some.inj (hc.symm.trans hbranch)
        rw [List.getElem?_set_self (List.getElem?_eq_some_iff.1 hc).1] at hbranch'
        cases hbranch'
        exact filter_branchStatements hbelow htarget hassigned hd
      · rw [List.getElem?_set_ne hi, hbranch] at hbranch'
        cases hbranch'
        rfl

theorem bareReturns_of_fixStatement (h : fixStatement s = .ok t) : bareReturns t = bareReturns s := by
  obtain ⟨span, shape⟩ := s
  cases shape with
  | returnStmt value =>
    cases value with
    | none => cases h
    | some e =>
      cases h
      rfl
  | ifStmt condition thenBranch elseBranch => exact (becomes_of_fixIf h).bareReturns_eq rfl
  | _ =>
    cases h
    rfl

/-- A method in a checked tree is fixed exactly when its bare returns are passed over, and refused
for one of them otherwise. Those that are passed over stand in the fixed method, at their places and
as they were. -/
theorem synthesize_bare_returns {returnType body : Node} {modifiers : List Modifier} {name : String}
    {parameters : List Node} {type : TypeName}
    (hn : n.shape = .methodDecl modifiers returnType name parameters body)
    (hbody : body.shape = .block statements) (htype : returnType.shape = .typeRef type)
    (hchecked : n.spanViolation? = none) :
    ((∃ m, synthesize n = .ok m) ↔ ∀ s ∈ statements, PassedOver s) ∧
    ((∃ s ∈ statements, ¬ PassedOver s) → ∃ s ∈ statements, ∃ r ∈ bareReturns s,
      synthesize n = .error (unsupported r.span "return without a value")) ∧
    ∀ m, synthesize n = .ok m → ∃ fixed,
      m = methodForm n.span modifiers returnType type name parameters body.span fixed ∧
        fixed.map bareReturns = statements.map bareReturns := by
  obtain ⟨span, shape⟩ := n
  dsimp only at hn
  subst hn
  have hcontained := (Node.spanViolation?_eq_none_iff_spansNest.1 hchecked).contained
  have hstatements (s : Node) (hs : s ∈ statements) : s.Contained :=
    contained_of_mem_body hcontained hbody hs
  have hpassed := exists_mapM_fixStatement_iff hstatements
  rw [synthesize_eq_map hbody htype, ← hpassed]
  cases hfixed : statements.mapM fixStatement with
  | ok fixed =>
    refine ⟨iff_of_true ⟨_, rfl⟩ ⟨fixed, rfl⟩, ?_, ?_⟩
    · rintro ⟨s, hs, hnot⟩
      exact absurd (hpassed.1 ⟨fixed, hfixed⟩ s hs) hnot
    · intro m hm
      cases hm
      exact ⟨fixed, rfl, map_eq_of_mapM (fun _ _ => bareReturns_of_fixStatement) hfixed⟩
  | error e =>
    obtain ⟨s, hs, hfix⟩ := exists_of_mapM_eq_error hfixed
    obtain ⟨r, hr, rfl⟩ := (fixStatement_eq_error_iff (hstatements s hs)).1 hfix
    obtain ⟨hmem, hshape⟩ := shape_of_lastReturn? hr
    refine ⟨iff_of_false ?_ ?_, fun _ => ?_, ?_⟩
    · rintro ⟨m, hm⟩
      cases hm
    · rintro ⟨fixed, h⟩
      cases h
    · exact ⟨s, hs, r, List.mem_filter.2 ⟨hmem, isBare_iff.2 hshape⟩, rfl⟩
    · intro m hm
      cases hm

/-- The statement `if (a) { … }` around two others. -/
def branching (inner : List Node) : Node :=
  ⟨⟨15, 43⟩, .ifStmt ⟨⟨19, 20⟩, .identifier "a"⟩ ⟨⟨22, 43⟩, .block inner⟩ none⟩

/-- The method `int TryGet() { if (a) { … } }`. -/
def tryBranching (inner : List Node) : Node :=
  ⟨⟨0, 45⟩, .methodDecl [] ⟨⟨0, 3⟩, .typeRef (.predefined .int)⟩ "TryGet" []
    ⟨⟨13, 45⟩, .block [branching inner]⟩⟩

/-- In `if (a) { return b; return; }` the bare return is the last one, and the method is refused. -/
theorem synthesize_bare_returns_behind :
    let bare : Node := ⟨⟨34, 41⟩, .returnStmt none⟩
    let inner := [⟨⟨24, 33⟩, .returnStmt (some ⟨⟨31, 32⟩, .identifier "b"⟩)⟩, bare]
    (tryBranching inner).spanViolation? = none ∧ ¬ PassedOver (branching inner) ∧
      synthesize (tryBranching inner) =
        .error (unsupported bare.span "return without a value") := by
  intro bare inner
  have hchecked : (tryBranching inner).spanViolation? = none := by decide +kernel
  have hnot : ¬ PassedOver (branching inner) := by
    intro hpassed
    obtain ⟨t, ht, -⟩ := hpassed bare [] ⟨[_], rfl⟩ rfl
    cases ht
  obtain ⟨-, hrefused, -⟩ :=
    synthesize_bare_returns (n := tryBranching inner) rfl rfl rfl hchecked
  obtain ⟨s, hs, r, hr, h⟩ := hrefused ⟨branching inner, List.mem_singleton_self _, hnot⟩
  cases List.mem_singleton.1 hs
  cases List.mem_singleton.1 hr
  exact ⟨hchecked, hnot, h⟩

/-- In `if (a) { return; return b; }` the bare return is passed over: the method is fixed, and
returns `bool` with the bare return in it. -/
theorem bare_return_passed_over :
    let bare : Node := ⟨⟨24, 31⟩, .returnStmt none⟩
    let b : Node := ⟨⟨39, 40⟩, .identifier "b"⟩
    let inner := [bare, ⟨⟨32, 41⟩, .returnStmt (some b)⟩]
    (tryBranching inner).spanViolation? = none ∧ bare ∈ bareReturns (branching inner) ∧
      synthesize (tryBranching inner) = .ok (methodForm ⟨0, 45⟩ []
        ⟨⟨0, 3⟩, .typeRef (.predefined .int)⟩ (.predefined .int) "TryGet" [] ⟨13, 45⟩
        [branching [bare, assigned ⟨32, 41⟩ b]]) := by
  intro bare b inner
  exact ⟨by decide +kernel, List.mem_singleton_self _, by cbv⟩

end TryMethod

end TreeLint
