import TreeLint.Proofs.SpelledLeaves

namespace TreeLint

namespace Node

/-- The tree without its spans. -/
def withoutSpans (n : Node) : Node := n.fold fun _ shape => ⟨.point 0, shape⟩

theorem withoutSpans_eq (n : Node) : n.withoutSpans = ⟨.point 0, n.shape.map withoutSpans⟩ := by
  rw [withoutSpans, fold_eq]
  rfl

theorem rendered_eq (n : Node) :
    n.rendered = ⟨(n.shape.map rendered).render, n.kind.isCompound⟩ := by
  rw [rendered, fold_eq]
  congr 1
  exact congrArg Kind.isCompound (Shape.kind_map _ _)

theorem withoutSpans_congr {span span' : Span} {s t : Shape Node}
    (h : s.map withoutSpans = t.map withoutSpans) :
    (⟨span, s⟩ : Node).withoutSpans = (⟨span', t⟩ : Node).withoutSpans := by
  rw [withoutSpans_eq, withoutSpans_eq, h]

theorem rendered_withoutSpans (n : Node) : n.withoutSpans.rendered = n.rendered := by
  induction n using induction_children with
  | h n ih =>
    have hshape : (n.shape.map withoutSpans).map rendered = n.shape.map rendered := by
      apply Shape.eq_of_form_eq
      · rw [Shape.form_map, Shape.form_map, Shape.form_map]
      · rw [Shape.children_map, Shape.children_map, Shape.children_map, List.map_map]
        exact List.map_congr_left ih
    rw [rendered_eq, rendered_eq n, kind, withoutSpans_eq, hshape, Shape.kind_map, kind]

end Node

/-- Where a part of a comparison stands: as an operand, or behind `is`. -/
inductive Role where
  | operand | pattern

/-- Comparisons, tests against patterns, names and literals, and the patterns over these. -/
inductive Term : Role → Node → Prop where
  | leaf {span : Span} {shape : Shape Node} (h : IsLeaf shape) : Term .operand ⟨span, shape⟩
  | binary {span : Span} {op : Operator} {left right : Node} (hleft : Term .operand left)
      (hright : Term .operand right) : Term .operand ⟨span, .binary op left right⟩
  | isPattern {span : Span} {expression pattern : Node} (hexpression : Term .operand expression)
      (hpattern : Term .pattern pattern) : Term .operand ⟨span, .isPattern expression pattern⟩
  | constantPattern {span : Span} {value : Node} (h : Term .operand value) :
      Term .pattern ⟨span, .constantPattern value⟩
  | notPattern {span : Span} {pattern : Node} (h : Term .pattern pattern) :
      Term .pattern ⟨span, .notPattern pattern⟩

/-- The text of a node as it stands in its place. -/
def Role.text : Role → Node → List Char
  | .operand, n => n.rendered.operand.toList
  | .pattern, n => n.render.toList

section Texts

variable {span : Span} {n : Node}

theorem text_of_compound (h : n.kind.isCompound) :
    Role.operand.text n = '(' :: (n.render.toList ++ [')']) := by
  rw [Role.text, Rendered.operand, Node.rendered_eq, if_pos h, Node.render, Node.rendered_eq]
  simp

theorem text_of_not_compound (h : ¬ n.kind.isCompound) : Role.operand.text n = n.render.toList := by
  rw [Role.text, Rendered.operand, Node.rendered_eq, if_neg h, Node.render, Node.rendered_eq]

theorem render_eq (n : Node) : n.render = (n.shape.map Node.rendered).render := by
  rw [Node.render, Node.rendered_eq]

theorem render_binary (op : Operator) (left right : Node) :
    (⟨span, .binary op left right⟩ : Node).render.toList =
      Role.operand.text left ++ ' ' :: (op.symbol.toList ++ ' ' :: Role.operand.text right) := by
  rw [render_eq]
  change (left.rendered.operand ++ " " ++ op.symbol ++ " " ++ right.rendered.operand).toList = _
  simp [Role.text]

theorem render_isPattern (expression pattern : Node) :
    (⟨span, .isPattern expression pattern⟩ : Node).render.toList =
      Role.operand.text expression ++ ' ' :: ("is".toList ++ ' ' :: Role.pattern.text pattern) := by
  rw [render_eq]
  change (expression.rendered.operand ++ " is " ++ pattern.rendered.text).toList = _
  simp [Role.text, Node.render]

theorem text_leaf {s : Shape Node} (h : IsLeaf s) :
    Role.operand.text ⟨span, s⟩ = (s.map Node.rendered).render.toList := by
  rw [text_of_not_compound (n := ⟨span, s⟩) h.not_isCompound, render_eq]

theorem text_binary_append (op : Operator) (left right : Node) (cs : List Char) :
    Role.operand.text ⟨span, .binary op left right⟩ ++ cs =
      '(' :: (Role.operand.text left ++ ' ' :: (op.symbol.toList ++
        ' ' :: (Role.operand.text right ++ ')' :: cs))) := by
  rw [text_of_compound (n := ⟨span, _⟩) rfl, render_binary]
  simp

theorem text_isPattern_append (expression pattern : Node) (cs : List Char) :
    Role.operand.text ⟨span, .isPattern expression pattern⟩ ++ cs =
      '(' :: (Role.operand.text expression ++ ' ' :: ("is".toList ++
        ' ' :: (Role.pattern.text pattern ++ ')' :: cs))) := by
  rw [text_of_compound (n := ⟨span, _⟩) rfl, render_isPattern]
  simp

theorem text_constantPattern (value : Node) :
    Role.pattern.text ⟨span, .constantPattern value⟩ = Role.operand.text value := by
  change (Node.render _).toList = _
  rw [render_eq]
  rfl

theorem text_notPattern (pattern : Node) :
    Role.pattern.text ⟨span, .notPattern pattern⟩ =
      "not".toList ++ ' ' :: Role.pattern.text pattern := by
  change (Node.render _).toList = _
  rw [render_eq]
  change ("not " ++ pattern.rendered.text).toList = _
  simp [Role.text, Node.render]

end Texts

variable {role : Role} {s : Shape Node} {span : Span} {x y left right expression pattern value : Node}
  {v w cs ds : List Char}

/-- The words between the two sides of a comparison. -/
inductive Connective : List Char → Prop where
  | symbol (op : Operator) : Connective op.symbol.toList
  | is : Connective "is".toList

theorem Connective.unbroken (hv : Connective v) : ∀ c ∈ v, ¬ c = ' ' := by
  cases hv with
  | symbol op => cases op <;> simp [Operator.symbol]
  | is => simp

theorem Connective.append_inj (hv : Connective v) (hw : Connective w)
    (h : v ++ ' ' :: cs = w ++ ' ' :: ds) : v = w ∧ cs = ds := by
  obtain ⟨rfl, hrest⟩ := append_inj_of_ends (· = ' ') hv.unbroken hw.unbroken (by simp) (by simp) h
  exact ⟨rfl, (List.cons.inj hrest).2⟩

theorem symbol_inj {op op' : Operator} (h : op.symbol.toList = op'.symbol.toList) : op = op' := by
  have hfind (o : Operator) : (Operator.all.find? fun p => p.symbol == o.symbol) = some o := by
    cases o <;> rfl
  rw [String.toList_inj] at h
  exact Option.some.inj ((hfind op).symm.trans (h ▸ hfind op'))

theorem symbol_ne_is (op : Operator) : op.symbol.toList ≠ "is".toList := by
  cases op <;> decide

theorem Term.text_ne_not (hx : Term .operand x) (hcs : FollowsOperand cs) :
    Role.operand.text x ++ cs ≠ "not".toList ++ ' ' :: ds := by
  cases hx with
  | leaf hleaf =>
    rw [text_leaf hleaf]
    exact hleaf.append_ne_not hleaf.spelled hcs
  | binary =>
    rw [text_binary_append]
    intro h
    cases h
  | isPattern =>
    rw [text_isPattern_append]
    intro h
    cases h

/-- A text that begins with the node in its place determines the node, up to spans, and what
follows. -/
def ReadsUniquely (role : Role) (x : Node) : Prop :=
  ∀ {y : Node} {cs ds : List Char}, Term role y → FollowsOperand cs → FollowsOperand ds →
    role.text x ++ cs = role.text y ++ ds → x.withoutSpans = y.withoutSpans ∧ cs = ds

theorem ReadsUniquely.left_inj (hx : ReadsUniquely .operand x) (hy : Term .operand y)
    (hv : Connective v) (hw : Connective w)
    (h : '(' :: (Role.operand.text x ++ ' ' :: (v ++ ' ' :: cs)) =
      '(' :: (Role.operand.text y ++ ' ' :: (w ++ ' ' :: ds))) :
    x.withoutSpans = y.withoutSpans ∧ v = w ∧ cs = ds := by
  obtain ⟨hxy, hmiddle⟩ := hx hy (followsOperand_blank _) (followsOperand_blank _) (List.cons.inj h).2
  exact ⟨hxy, hv.append_inj hw (List.cons.inj hmiddle).2⟩

theorem ReadsUniquely.right_inj (hx : ReadsUniquely role x) (hy : Term role y)
    (h : role.text x ++ ')' :: cs = role.text y ++ ')' :: ds) :
    x.withoutSpans = y.withoutSpans ∧ cs = ds := by
  obtain ⟨hxy, hrest⟩ := hx hy (followsOperand_close cs) (followsOperand_close ds) h
  exact ⟨hxy, (List.cons.inj hrest).2⟩

theorem readsUniquely_leaf (hs : IsLeaf s) : ReadsUniquely .operand ⟨span, s⟩ := by
  intro y cs ds hy hcs hds h
  rw [text_leaf hs] at h
  cases hy with
  | leaf ht =>
    rw [text_leaf ht] at h
    obtain ⟨rfl, hrest⟩ := hs.spelled.append_inj ht.spelled hcs hds h
    exact ⟨Node.withoutSpans_congr rfl, hrest⟩
  | binary =>
    rw [text_binary_append] at h
    exact absurd h hs.spelled.append_ne_open
  | isPattern =>
    rw [text_isPattern_append] at h
    exact absurd h hs.spelled.append_ne_open

theorem ReadsUniquely.binary {op : Operator} (hleft : ReadsUniquely .operand left)
    (hright : ReadsUniquely .operand right) : ReadsUniquely .operand ⟨span, .binary op left right⟩ := by
  intro y cs ds hy _ _ h
  rw [text_binary_append] at h
  cases hy with
  | leaf ht =>
    rw [text_leaf ht] at h
    exact absurd h.symm ht.spelled.append_ne_open
  | @binary span' op' left' right' hleft' hright' =>
    rw [text_binary_append] at h
    obtain ⟨hl, hop, hend⟩ := hleft.left_inj hleft' (.symbol op) (.symbol op') h
    obtain ⟨hr, hrest⟩ := hright.right_inj hright' hend
    refine ⟨Node.withoutSpans_congr ?_, hrest⟩
    change Shape.binary op left.withoutSpans right.withoutSpans =
      .binary op' left'.withoutSpans right'.withoutSpans
    rw [symbol_inj hop, hl, hr]
  | isPattern hexpression' =>
    rw [text_isPattern_append] at h
    obtain ⟨-, hop, -⟩ := hleft.left_inj hexpression' (.symbol op) .is h
    exact absurd hop (symbol_ne_is op)

theorem ReadsUniquely.isPattern (hexpression : ReadsUniquely .operand expression)
    (hpattern : ReadsUniquely .pattern pattern) :
    ReadsUniquely .operand ⟨span, .isPattern expression pattern⟩ := by
  intro y cs ds hy _ _ h
  rw [text_isPattern_append] at h
  cases hy with
  | leaf ht =>
    rw [text_leaf ht] at h
    exact absurd h.symm ht.spelled.append_ne_open
  | @binary span' op' left' right' hleft' =>
    rw [text_binary_append] at h
    obtain ⟨-, hop, -⟩ := hexpression.left_inj hleft' .is (.symbol op') h
    exact absurd hop.symm (symbol_ne_is op')
  | @isPattern span' expression' pattern' hexpression' hpattern' =>
    rw [text_isPattern_append] at h
    obtain ⟨he, -, hend⟩ := hexpression.left_inj hexpression' .is .is h
    obtain ⟨hp, hrest⟩ := hpattern.right_inj hpattern' hend
    refine ⟨Node.withoutSpans_congr ?_, hrest⟩
    change Shape.isPattern expression.withoutSpans pattern.withoutSpans =
      .isPattern expression'.withoutSpans pattern'.withoutSpans
    rw [he, hp]

theorem ReadsUniquely.constantPattern (hvalue : Term .operand value)
    (h : ReadsUniquely .operand value) : ReadsUniquely .pattern ⟨span, .constantPattern value⟩ := by
  intro y cs ds hy hcs hds heq
  rw [text_constantPattern] at heq
  cases hy with
  | @constantPattern span' value' hvalue' =>
    rw [text_constantPattern] at heq
    obtain ⟨hv, hrest⟩ := h hvalue' hcs hds heq
    refine ⟨Node.withoutSpans_congr ?_, hrest⟩
    change Shape.constantPattern value.withoutSpans = .constantPattern value'.withoutSpans
    rw [hv]
  | notPattern =>
    rw [text_notPattern, List.append_assoc] at heq
    exact absurd heq (hvalue.text_ne_not hcs)

theorem ReadsUniquely.notPattern (h : ReadsUniquely .pattern pattern) :
    ReadsUniquely .pattern ⟨span, .notPattern pattern⟩ := by
  intro y cs ds hy hcs hds heq
  rw [text_notPattern, List.append_assoc] at heq
  cases hy with
  | constantPattern hvalue' =>
    rw [text_constantPattern] at heq
    exact absurd heq.symm (hvalue'.text_ne_not hds)
  | @notPattern span' pattern' hpattern' =>
    rw [text_notPattern, List.append_assoc] at heq
    have hafter := List.append_cancel_left heq
    obtain ⟨hp, hrest⟩ := h hpattern' hcs hds (List.cons.inj hafter).2
    refine ⟨Node.withoutSpans_congr ?_, hrest⟩
    change Shape.notPattern pattern.withoutSpans = .notPattern pattern'.withoutSpans
    rw [hp]

/-- Every expression and every pattern is read in one way. -/
theorem Term.readsUniquely (hx : Term role x) : ReadsUniquely role x := by
  induction hx with
  | leaf hs => exact readsUniquely_leaf hs
  | binary _ _ ihleft ihright => exact ihleft.binary ihright
  | isPattern _ _ ihexpression ihpattern => exact ihexpression.isPattern ihpattern
  | constantPattern hvalue ih => exact ih.constantPattern hvalue
  | notPattern _ ih => exact ih.notPattern

theorem Term.exists_left (hx : Term .operand x) (h : x.kind.isCompound) :
    ∃ left ds, Term .operand left ∧ x.render.toList = Role.operand.text left ++ ' ' :: ds := by
  cases hx with
  | leaf hleaf => exact absurd h hleaf.not_isCompound
  | binary hleft => exact ⟨_, _, hleft, render_binary _ _ _⟩
  | isPattern hexpression => exact ⟨_, _, hexpression, render_isPattern _ _⟩

theorem Term.isCompound_of_render_eq (hx : Term .operand x) (hy : Term .operand y)
    (h : x.render = y.render) (hcompound : y.kind.isCompound) : x.kind.isCompound := by
  by_contra hleaf
  obtain ⟨left, ds, hleft, hrender⟩ := hy.exists_left hcompound
  have htext : Role.operand.text x ++ [] = Role.operand.text left ++ ' ' :: ds := by
    rw [List.append_nil, text_of_not_compound hleaf, h, hrender]
  have hend : FollowsOperand [] := fun _ hc => (by cases hc)
  cases (hx.readsUniquely hleft hend (followsOperand_blank ds) htext).2

theorem Term.text_eq_of_render_eq (hx : Term .operand x) (hy : Term .operand y)
    (h : x.render = y.render) : Role.operand.text x = Role.operand.text y := by
  by_cases hcompound : x.kind.isCompound
  · rw [text_of_compound hcompound, text_of_compound (hy.isCompound_of_render_eq hx h.symm hcompound), h]
  · rw [text_of_not_compound hcompound,
      text_of_not_compound fun hy' => hcompound (hx.isCompound_of_render_eq hy h hy'), h]

/-- Two expressions are rendered alike exactly when they are the same up to spans. -/
theorem render_eq_iff_withoutSpans (hx : Term .operand x) (hy : Term .operand y) :
    x.render = y.render ↔ x.withoutSpans = y.withoutSpans := by
  constructor
  · intro h
    have hend : FollowsOperand [] := fun _ hc => (by cases hc)
    exact (hx.readsUniquely hy hend hend (by rw [hx.text_eq_of_render_eq hy h])).1
  · intro h
    rw [Node.render, Node.render, ← x.rendered_withoutSpans, h, y.rendered_withoutSpans]

theorem render_eq_iff_withoutSpans_quotedParenthesis :
    let test (a b : UInt32) : Node :=
      ⟨⟨a, b⟩, .isPattern
        ⟨⟨a, b⟩, .binary .equals ⟨⟨a, b⟩, .identifier "a"⟩ ⟨⟨a, b⟩, .literal (.string ") != c")⟩⟩
        ⟨⟨a, b⟩, .notPattern ⟨⟨a, b⟩, .constantPattern ⟨⟨a, b⟩, .literal (.int (-5))⟩⟩⟩⟩
    Term .operand (test 0 20) ∧ Term .operand (test 30 50) ∧
      (test 0 20).render = (test 30 50).render ∧
      (test 0 20).withoutSpans = (test 30 50).withoutSpans := by
  intro test
  have hname : IsName "a" := isName_of_letters (c := 'a') (by decide) (List.forall_mem_nil _) (by decide)
  have hterm (a b : UInt32) : Term .operand (test a b) :=
    .isPattern (.binary (.leaf (.identifier hname)) (.leaf .literal))
      (.notPattern (.constantPattern (.leaf .literal)))
  have hrender : (test 0 20).render = (test 30 50).render := rfl
  exact ⟨hterm 0 20, hterm 30 50, hrender,
    (render_eq_iff_withoutSpans (hterm 0 20) (hterm 30 50)).1 hrender⟩

end TreeLint
