import TreeLint.Proofs.Builtin
import TreeLint.Proofs.FinalReturn
import TreeLint.Proofs.Replacing

namespace TreeLint

/-- Each new subtree is the fix that one of the rules has for the old one. -/
def Edits.Fixes (edits : Edits) (registry : Registry) (n : Node) : Prop :=
  ∀ p new m, edits p = some new → n.subtree? p = some m →
    ∃ r ∈ registry.rules, r.synthesize m = .ok new

/-- As the child of another node, the new node looks to the built-in rules like the old one. -/
structure Node.SeenAlike (m new : Node) : Prop where
  span : new.span = m.span
  returnsBool : TryMethod.returnsBool new = TryMethod.returnsBool m

/-- A property that holds where no built-in rule looks, and that a comparison or a method keeps when
it is fixed or when its children are seen alike. -/
structure Persistent (P : Node → Prop) : Prop where
  inner : ∀ n : Node, ¬ n.isSite → P n
  fixed : ∀ n m : Node, n.fixed? = some m → P n → P m
  alike : ∀ (n : Node) (g : Nat → Node → Node),
    (∀ i c, n.children[i]? = some c → Node.SeenAlike c (g i c)) → P n → P ⟨n.span, n.shape.mapIdx g⟩

namespace Node

variable {m n new : Node} {span : Span}

theorem seenAlike_mapIdx (n : Node) (g : Nat → Node → Node) :
    n.SeenAlike ⟨n.span, n.shape.mapIdx g⟩ := by
  constructor
  · rfl
  · obtain ⟨span, shape⟩ := n
    cases shape with
    | _ => rfl

theorem seenAlike_of_synthesize {r : Rule} (hr : r ∈ Registry.builtin.rules)
    (h : r.synthesize m = .ok new) : m.SeenAlike new := by
  rcases Registry.mem_builtin.1 hr with rfl | rfl
  · cases ValueEquality.becomes_of_synthesize h with
    | pattern => exact ⟨rfl, rfl⟩
  · cases TryMethod.becomes_of_synthesize h with
    | method => exact ⟨rfl, rfl⟩

theorem fixed?_of_synthesize {r : Rule} (hr : r ∈ Registry.builtin.rules)
    (h : r.synthesize m = .ok new) : m.fixed? = some new := by
  apply fixed?_eq_some.2
  rcases Registry.mem_builtin.1 hr with rfl | rfl
  · cases ValueEquality.becomes_of_synthesize h with
    | pattern => exact ⟨_, hr, rfl, h⟩
  · cases TryMethod.becomes_of_synthesize h with
    | method => exact ⟨_, hr, rfl, h⟩

end Node

namespace Persistent

variable {P : Node → Prop} {n m new : Node} {span : Span} {edits : Edits}

theorem everywhere_mk (hP : Persistent P) {shape : Shape Node} :
    (⟨span, shape⟩ : Node).Everywhere P ↔
      (shape.kind.rule?.isSome → P ⟨span, shape⟩) ∧ ∀ c ∈ shape.children, c.Everywhere P := by
  rw [Node.everywhere_mk]
  apply and_congr_left'
  constructor
  · exact fun h _ => h
  · intro h
    by_cases hsite : shape.kind.rule?.isSome
    · exact h hsite
    · exact hP.inner _ hsite

theorem of_inert (hP : Persistent P) (h : n.Inert) : n.Everywhere P := h.imp hP.inner

theorem replacing (hP : Persistent P) (hn : n.Everywhere P)
    (hedits : ∀ p new m, edits p = some new → n.subtree? p = some m →
      m.SeenAlike new ∧ (m.Everywhere P → new.Everywhere P)) : (n.replacing edits).Everywhere P :=
  hn.replacing (fun n g _ => n.seenAlike_mapIdx g) hP.alike hedits

theorem pattern (hP : Persistent P) (hn : n.Everywhere P)
    (h : ValueEquality.synthesize n = .ok m) : ∀ c ∈ m.children, c.Everywhere P := by
  cases ValueEquality.becomes_of_synthesize h with
  | @pattern span op left right pattern hpattern =>
    have hleft : left.Everywhere P := hn.child List.mem_cons_self
    have hright : right.Everywhere P := hn.child (by simp [Node.children, Shape.children])
    cases op with
    | equals =>
      cases hpattern
      simp [Node.children, hP.everywhere_mk, Shape.kind, Kind.rule?, Shape.children, hleft, hright]
    | notEquals =>
      cases hpattern
      simp [Node.children, hP.everywhere_mk, Shape.kind, Kind.rule?, Shape.children, hleft, hright]
    | _ => cases hpattern

theorem assignment (hP : Persistent P) {value : Option Node} (hn : n.Everywhere P)
    (hshape : n.shape = .returnStmt value) (h : TryMethod.assignment n.span value = .ok new) :
    n.SeenAlike new ∧ new.Everywhere P := by
  obtain ⟨span, shape⟩ := n
  cases hshape
  cases value with
  | none => cases h
  | some value =>
    cases h
    have hvalue : value.Everywhere P := hn.child (by simp [Node.children, Shape.children])
    constructor
    · exact ⟨rfl, rfl⟩
    · simp [hP.everywhere_mk, Shape.kind, Kind.rule?, Shape.children, hvalue]

theorem fixIf (hP : Persistent P) {thenBranch : Node} (hn : n.Everywhere P)
    (h : TryMethod.fixIf n thenBranch = .ok new) : new.Everywhere P := by
  cases TryMethod.becomes_of_fixIf h with
  | unchanged => exact hn
  | assigned htarget hshape hassigned hnew =>
    rw [Node.eq_replacing_of_replace? htarget hnew]
    apply hP.replacing hn
    intro q new' m hput hm
    obtain ⟨rfl, rfl⟩ := Edits.eq_of_put_eq_some hput
    cases hm.symm.trans htarget
    have hbelow := Node.Everywhere.below hn (Node.mem_preorder_of_subtree? htarget)
    obtain ⟨halike, hkept⟩ := hP.assignment hbelow hshape hassigned
    exact ⟨halike, fun _ => hkept⟩

theorem fixStatement (hP : Persistent P) (hn : n.Everywhere P)
    (h : TryMethod.fixStatement n = .ok new) : new.Everywhere P := by
  rw [TryMethod.fixStatement.eq_def] at h
  split at h
  · rename_i value hshape
    exact (hP.assignment hn hshape h).2
  · exact hP.fixIf hn h
  · cases h
    exact hn

theorem fixBody (hP : Persistent P) {statements : List Node} {body : Node}
    (hstatements : ∀ s ∈ statements, s.Everywhere P)
    (h : TryMethod.fixBody span statements = .ok body) : body.Everywhere P := by
  rw [TryMethod.fixBody, bind_eq_ok] at h
  obtain ⟨fixed, hfixed, h⟩ := h
  cases h
  have hkept : ∀ s ∈ fixed, s.Everywhere P := by
    have hall := mapM_eq_ok.1 hfixed
    clear hfixed
    induction hall with
    | nil => exact hstatements
    | cons hs _ ih =>
      rw [List.forall_mem_cons] at hstatements ⊢
      exact ⟨hP.fixStatement hstatements.1 hs, ih hstatements.2⟩
  have hinitialization := hP.of_inert (TryMethod.inert_initialization (.point span.start))
  have hreturn := hP.of_inert (TryMethod.inert_returnBool (.point span.stop) true)
  have hclause := hP.of_inert (TryMethod.inert_failureClause (.point span.stop))
  -- The two new blocks and the `try` are no sites, and hold the statements and what is inert.
  simpa [hP.everywhere_mk, Shape.kind, Kind.rule?, Shape.children, or_imp, forall_and,
    hinitialization, hreturn, hclause] using hkept

theorem method (hP : Persistent P) (hn : n.Everywhere P)
    (h : TryMethod.synthesize n = .ok m) : ∀ c ∈ m.children, c.Everywhere P := by
  cases TryMethod.becomes_of_synthesize h with
  | @method span typeSpan bodySpan modifiers type name parameters statements body hbody =>
    have hblock : (⟨bodySpan, .block statements⟩ : Node).Everywhere P :=
      hn.child (by simp [Node.children, Shape.children])
    have hbody := hP.fixBody (fun s hs => hblock.child hs) hbody
    have htype : (⟨typeSpan, .typeRef (.predefined .bool)⟩ : Node).Everywhere P :=
      hP.of_inert (by simp [Node.inert_mk, Shape.kind, Shape.children, Kind.rule?])
    intro c hc
    simp only [Node.children, Shape.children, List.append_assoc, List.mem_cons, List.mem_append,
      List.not_mem_nil, or_false] at hc
    rcases hc with rfl | hc | rfl | rfl
    · exact htype
    · exact hn.child (by simp [Node.children, Shape.children, hc])
    · exact hP.of_inert (TryMethod.inert_outParameter _ _)
    · exact hbody

theorem everywhere_of_synthesize (hP : Persistent P) {r : Rule}
    (hr : r ∈ Registry.builtin.rules) (hn : n.Everywhere P) (h : r.synthesize n = .ok m) :
    m.Everywhere P := by
  refine Node.everywhere_iff.2 ⟨hP.fixed n m (Node.fixed?_of_synthesize hr h) hn.self, ?_⟩
  rcases Registry.mem_builtin.1 hr with rfl | rfl
  · exact hP.pattern hn h
  · exact hP.method hn h

/-- What persists holds everywhere after fixes have been put in. -/
theorem fixes (hP : Persistent P) {registry : Registry} (hregistry : registry.IsBuiltin)
    (hn : n.Everywhere P) (h : edits.Fixes registry n) : (n.replacing edits).Everywhere P := by
  apply hP.replacing hn
  intro p new m hnew hm
  obtain ⟨r, hr, hsynthesize⟩ := h p new m hnew hm
  have hr := hregistry.subset r hr
  exact ⟨Node.seenAlike_of_synthesize hr hsynthesize, fun hm =>
    hP.everywhere_of_synthesize hr hm hsynthesize⟩

end Persistent

end TreeLint
