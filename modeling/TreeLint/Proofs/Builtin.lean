import Mathlib.Data.List.Nodup
import TreeLint.Proofs.FixSteps
import TreeLint.Proofs.Traversal

namespace TreeLint

namespace Registry

/-- A registry of built-in rules, in any order, none of them twice. -/
structure IsBuiltin (registry : Registry) : Prop where
  subset : ∀ r ∈ registry.rules, r ∈ builtin.rules
  nodup : registry.ids.Nodup

theorem mem_builtin {r : Rule} :
    r ∈ builtin.rules ↔ r = ValueEquality.rule ∨ r = TryMethod.rule := by
  rw [builtin, List.mem_cons, List.mem_singleton]

theorem eq_of_id_eq {r s : Rule} (hr : r ∈ builtin.rules) (hs : s ∈ builtin.rules)
    (h : r.id = s.id) : r = s := by
  rcases mem_builtin.1 hr with rfl | rfl <;> rcases mem_builtin.1 hs with rfl | rfl
  · rfl
  · exact absurd h (by decide)
  · exact absurd h (by decide)
  · rfl

theorem isBuiltin_enabling (ids : List String) : (enabling ids).IsBuiltin := by
  refine ⟨fun r hr => (List.mem_filter.1 hr).1, ?_⟩
  exact ((by decide : builtin.ids.Nodup)).sublist (List.filter_sublist.map Rule.id)

theorem isBuiltin_builtin : builtin.IsBuiltin := ⟨fun _ hr => hr, by decide⟩

theorem find?_eq_some {registry : Registry} {id : String} {r : Rule}
    (h : registry.find? id = some r) : r ∈ registry.rules ∧ r.id = id := by
  rw [find?] at h
  exact ⟨List.mem_of_find?_eq_some h, by simpa using List.find?_some h⟩

theorem IsBuiltin.find?_id {registry : Registry} (h : registry.IsBuiltin) {r : Rule}
    (hr : r ∈ registry.rules) : registry.find? r.id = some r := by
  cases hf : registry.find? r.id with
  | none =>
    rw [find?, List.find?_eq_none] at hf
    exact absurd (beq_self_eq_true r.id) (hf r hr)
  | some s =>
    obtain ⟨hs, hid⟩ := find?_eq_some hf
    rw [eq_of_id_eq (h.subset s hs) (h.subset r hr) hid]

end Registry

/-- The built-in rule for nodes of a kind. -/
def Kind.rule? : Kind → Option Rule
  | .binary => some ValueEquality.rule
  | .methodDecl => some TryMethod.rule
  | _ => none

theorem Kind.rule?_eq_some {k : Kind} {r : Rule} :
    k.rule? = some r ↔ r ∈ Registry.builtin.rules ∧ r.targetKind = k := by
  rw [Registry.mem_builtin]
  constructor
  · intro h
    cases k with
    | binary =>
      cases h
      exact ⟨.inl rfl, rfl⟩
    | methodDecl =>
      cases h
      exact ⟨.inr rfl, rfl⟩
    | _ => cases h
  · rintro ⟨rfl | rfl, rfl⟩
    · rfl
    · rfl

namespace Node

variable {m n : Node} {f : Finding} {r : Rule}

/-- A built-in rule looks at the node. -/
def isSite (n : Node) : Bool := n.kind.rule?.isSome

/-- The finding that a node stands for, reported or not. -/
def finding? (n : Node) : Option Finding := n.kind.rule?.map fun r => r.findingAt n.span

/-- The fixed node, if there is a fix. -/
def fixed? (n : Node) : Option Node := n.kind.rule?.bind fun r => (r.synthesize n).toOption

theorem rule?_eq_none (h : ¬ n.isSite) : n.kind.rule? = none := by
  rwa [isSite, Option.not_isSome_iff_eq_none] at h

theorem isSite_congr (h : m.kind = n.kind) : m.isSite = n.isSite := by
  rw [isSite, isSite, h]

theorem finding?_congr (hkind : m.kind = n.kind) (hspan : m.span = n.span) :
    m.finding? = n.finding? := by
  rw [finding?, finding?, hkind, hspan]

theorem finding?_eq_none (h : ¬ n.isSite) : n.finding? = none := by
  rw [finding?, rule?_eq_none h, Option.map_none]

theorem finding?_eq_some : n.finding? = some f ↔
    ∃ r ∈ Registry.builtin.rules, r.targetKind = n.kind ∧ r.findingAt n.span = f := by
  simp only [finding?, Option.map_eq_some_iff, Kind.rule?_eq_some, and_assoc]

theorem fixed?_eq_some : n.fixed? = some m ↔
    ∃ r ∈ Registry.builtin.rules, r.targetKind = n.kind ∧ r.synthesize n = .ok m := by
  simp only [fixed?, Option.bind_eq_some_iff, Kind.rule?_eq_some, and_assoc]
  refine exists_congr fun r => and_congr_right fun _ => and_congr_right fun _ => ?_
  cases r.synthesize n with
  | error e => simp [Except.toOption]
  | ok m => simp [Except.toOption]

theorem of_fixed?_eq_some (h : n.fixed? = some m) :
    m.span = n.span ∧ m.category = n.category ∧ (m.isSite → m.kind = n.kind) := by
  obtain ⟨r, hr, -, hm⟩ := fixed?_eq_some.1 h
  rcases Registry.mem_builtin.1 hr with rfl | rfl
  · cases ValueEquality.becomes_of_synthesize hm with
    | pattern => exact ⟨rfl, rfl, fun h => absurd h Bool.false_ne_true⟩
  · cases TryMethod.becomes_of_synthesize hm with
    | method => exact ⟨rfl, rfl, fun _ => rfl⟩

/-- No built-in rule looks at any node of the tree. -/
def Inert (n : Node) : Prop := n.Everywhere fun m => ¬ m.isSite

theorem inert_mk {span : Span} {shape : Shape Node} :
    (⟨span, shape⟩ : Node).Inert ↔ shape.kind.rule? = none ∧ ∀ c ∈ shape.children, c.Inert := by
  rw [Inert, everywhere_mk, isSite, kind, Option.not_isSome_iff_eq_none]
  rfl

end Node

namespace TryMethod

theorem inert_initialization (place : Span) : (initialization place).Inert := by
  simp [initialization, Node.inert_mk, Shape.kind, Shape.children, Kind.rule?]

theorem inert_returnBool (place : Span) (value : Bool) : (returnBool place value).Inert := by
  simp [returnBool, Node.inert_mk, Shape.kind, Shape.children, Kind.rule?]

theorem inert_failureClause (place : Span) : (failureClause place).Inert := by
  simp [failureClause, returnBool, Node.inert_mk, Shape.kind, Shape.children, Kind.rule?]

theorem inert_outParameter (place : Span) (type : TypeName) : (outParameter place type).Inert := by
  simp [outParameter, Node.inert_mk, Shape.kind, Shape.children, Kind.rule?]

end TryMethod

end TreeLint
