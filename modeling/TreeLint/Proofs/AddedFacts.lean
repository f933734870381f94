import Mathlib.Data.List.Flatten
import TreeLint.Proofs.Reports

namespace TreeLint

theorem filterMap_sublist {α β : Type} {xs : List α} {f g : α → Option β}
    (h : ∀ x ∈ xs, ∀ y, f x = some y → g x = some y) : (xs.filterMap f).Sublist (xs.filterMap g) := by
  rw [List.filterMap_eq_flatMap_toList, List.filterMap_eq_flatMap_toList]
  apply List.Sublist.flatMap_right
  intro x hx
  cases hf : f x with
  | none => exact List.nil_sublist _
  | some y => rw [h x hx y hf]

/-- What the first table knows of a span, the second one knows too. -/
def TypeTable.Extends (u t : TypeTable) : Prop :=
  ∀ span, (t.factAt span).isKnown → u.factAt span = t.factAt span

theorem TypeTable.Extends.isValueType {t u : TypeTable} (h : u.Extends t) {span : Span}
    (hspan : (t.factAt span).isValueType) : (u.factAt span).isValueType := by
  have hknown : (t.factAt span).isKnown := by
    cases hfact : t.factAt span with
    | known isValueType => rfl
    | unknown =>
      rw [hfact] at hspan
      cases hspan
  rwa [h span hknown]

namespace Rule

variable {r : Rule} {t u : TypeTable} {n : Node} {span : Span} {f : Finding}

theorem check_extends (h : u.Extends t) (hcheck : ValueEquality.check t.oracle n = some span) :
    ValueEquality.check u.oracle n = some span := by
  obtain ⟨_, shape⟩ := n
  cases shape with
  | binary op left right =>
    dsimp only [ValueEquality.check] at hcheck ⊢
    split at hcheck
    · rename_i hsite
      obtain ⟨hop, hleft, hright⟩ := hsite
      rwa [if_pos ⟨hop, h.isValueType hleft, h.isValueType hright⟩]
    · cases hcheck
  | _ => cases hcheck

theorem scan_tryMethod (o p : TypeOracle) (root : Node) :
    TryMethod.rule.scan o root = TryMethod.rule.scan p root :=
  rfl

theorem reported?_extends (hr : r ∈ Registry.builtin.rules) (h : u.Extends t)
    (hf : r.reported? t.oracle n = some f) : r.reported? u.oracle n = some f := by
  rcases Registry.mem_builtin.1 hr with rfl | rfl
  · rw [reported?] at hf ⊢
    split at hf
    · rename_i hkind
      obtain ⟨span, hspan, rfl⟩ := Option.map_eq_some_iff.1 hf
      rw [if_pos hkind]
      exact Option.map_eq_some_iff.2 ⟨span, check_extends h hspan, rfl⟩
    · cases hf
  · exact hf

theorem scan_sublist (hr : r ∈ Registry.builtin.rules) (h : u.Extends t) (root : Node) :
    (r.scan t.oracle root).Sublist (r.scan u.oracle root) := by
  rw [scan_eq, scan_eq]
  exact filterMap_sublist fun n _ f hf => reported?_extends hr h hf

theorem filter_scan_tryMethod (hr : r ∈ Registry.builtin.rules) (o p : TypeOracle) (root : Node) :
    (r.scan o root).filter (fun f => f.ruleId == TryMethod.ruleId) =
      (r.scan p root).filter fun f => f.ruleId == TryMethod.ruleId := by
  rcases Registry.mem_builtin.1 hr with rfl | rfl
  · have hnone (o : TypeOracle) :
        (ValueEquality.rule.scan o root).filter (fun f => f.ruleId == TryMethod.ruleId) = [] := by
      rw [List.filter_eq_nil_iff]
      intro f hf
      rw [ruleId_of_mem_scan hf]
      decide
    rw [hnone, hnone]
  · rw [scan_tryMethod o p]

end Rule

namespace Registry

variable {registry : Registry} {t u : TypeTable}

/-- Under a table that knows more, all findings are reported again, in the same order, and those on
methods are the same. -/
theorem report_under_extension (hregistry : registry.IsBuiltin) (h : u.Extends t) (tree : Node) :
    (registry.report t.oracle tree).Sublist (registry.report u.oracle tree) ∧
    (registry.report t.oracle tree).filter (fun f => f.ruleId == TryMethod.ruleId) =
      (registry.report u.oracle tree).filter fun f => f.ruleId == TryMethod.ruleId := by
  constructor
  · apply List.Sublist.flatMap_right
    intro r hr
    exact Rule.scan_sublist (hregistry.subset r hr) h tree
  · rw [report, report, List.filter_flatMap, List.filter_flatMap]
    apply List.flatMap_congr
    intro r hr
    exact Rule.filter_scan_tryMethod (hregistry.subset r hr) t.oracle u.oracle tree

theorem report_under_extension_tryGet :
    let t := TypeTable.ofEntries [⟨⟨22, 23⟩, .known true⟩]
    let method := TryMethod.rule.findingAt ⟨0, 30⟩
    let comparison := ValueEquality.rule.findingAt ⟨22, 28⟩
    TypeTable.tryGet.Extends t ∧
      builtin.report t.oracle Node.tryGet = [method] ∧
      builtin.report TypeTable.tryGet.oracle Node.tryGet = [comparison, method] ∧
      [method].Sublist [comparison, method] ∧
      [method].filter (fun f => f.ruleId == TryMethod.ruleId) =
        [comparison, method].filter fun f => f.ruleId == TryMethod.ruleId := by
  intro t method comparison
  have hextends : TypeTable.tryGet.Extends t := by
    intro span hknown
    by_cases hspan : span = ⟨22, 23⟩
    · rw [hspan]
      decide
    · have hentries : t.entries = [⟨⟨22, 23⟩, .known true⟩] := rfl
      rw [TypeTable.factAt, hentries, List.find?_cons,
        beq_false_of_ne fun heq => hspan heq.symm] at hknown
      cases hknown
  have hfirst : builtin.report t.oracle Node.tryGet = [method] := by decide +kernel
  have hsecond : builtin.report TypeTable.tryGet.oracle Node.tryGet = [comparison, method] := by
    decide +kernel
  have hreports := report_under_extension isBuiltin_builtin hextends Node.tryGet
  rw [hfirst, hsecond] at hreports
  exact ⟨hextends, hfirst, hsecond, hreports⟩

end Registry

end TreeLint
