import TreeLint.Document
import TreeLint.Proofs.StoredTrees

namespace TreeLint

open Codec

namespace Json

variable {v : Json} {items : List Json} {fields : List (String × Json)}

theorem legibleItems_of_forall (h : ∀ v ∈ items, v.isLegible) : legibleItems items := by
  induction items with
  | nil => rfl
  | cons v items ih =>
    obtain ⟨hv, hitems⟩ := List.forall_mem_cons.1 h
    rw [legibleItems, hv, ih hitems]
    rfl

theorem legibleFields_of_forall (h : ∀ f ∈ fields, f.2.isLegible) : legibleFields fields := by
  induction fields with
  | nil => rfl
  | cons f fields ih =>
    obtain ⟨hf, hfields⟩ := List.forall_mem_cons.1 h
    rw [legibleFields, hf, ih hfields]
    rfl

theorem Plain.isLegible (h : v.Plain) : v.isLegible := by
  induction h with
  | int h =>
    rw [Json.isLegible, decide_eq_true h]
    rfl
  | array _ ih => exact legibleItems_of_forall ih
  | object _ ih => exact legibleFields_of_forall ih
  | _ => rfl

theorem plain_strings {α : Type} (text : α → String) (as : List α) :
    (array (as.map fun a => string (text a))).Plain := by
  apply Plain.array
  intro v hv
  obtain ⟨a, -, rfl⟩ := List.mem_map.1 hv
  exact .string (text a)

theorem plain_getD {v : Option Json} (h : ∀ w ∈ v.toList, w.Plain) : (v.getD .null).Plain := by
  cases v with
  | none => exact .null
  | some w => exact h w List.mem_cons_self

theorem plain_optional {α : Type} (text : α → String) (a : Option α) :
    ((a.map fun a => string (text a)).getD .null).Plain := by
  cases a with
  | none => exact .null
  | some a => exact .string (text a)

end Json

theorem Span.lt_irrefl {s : Span} : ¬ s.lt s := by
  simp [lt]

theorem Span.plain_toJson (s : Span) : s.toJson.Plain := by
  have hoffset (offset : UInt32) : (Json.int offset.toNat).Plain := by
    have hbound := offset.toNat_lt
    apply Json.Plain.int
    rw [Decimal.wordBound]
    omega
  apply Json.Plain.object
  simp only [List.forall_mem_cons]
  exact ⟨hoffset s.start, hoffset s.stop, by simp⟩

theorem TypeName.plain_toJson (name : TypeName) : name.toJson.Plain := by
  induction name with
  | predefined type => exact .object (by simpa using .string type.keyword)
  | named name => exact .object (by simpa using .string name)
  | nullable inner ih => exact .object (by simpa using ih)

theorem LiteralValue.plain_toJson (value : LiteralValue) : value.toJson.Plain := by
  cases value with
  | null => exact .string _
  | default => exact .string _
  | bool value => exact .object (by simpa using .bool value)
  | int value =>
    have hlow := value.le_toInt
    have hhigh := value.toInt_lt
    have hint : (Json.int value.toInt).Plain := by
      apply Json.Plain.int
      rw [Decimal.wordBound]
      omega
    exact .object (by simpa using hint)
  | string value => exact .object (by simpa using .string value)

namespace Shape

theorem plain_modifiersJson (modifiers : List Modifier) : (modifiersJson modifiers).Plain :=
  Json.plain_strings Modifier.keyword modifiers

theorem plain_fieldValues {s : Shape Json} (h : ∀ c ∈ s.children, c.Plain) :
    ∀ v ∈ s.fieldValues, v.Plain := by
  have hstring := Json.Plain.string
  cases s with
  | parameter modifier type name =>
    simp only [fieldValues, List.forall_mem_cons]
    exact ⟨Json.plain_optional ParameterModifier.keyword modifier, h type List.mem_cons_self,
      hstring name, by simp⟩
  | catchClause exceptionType name body =>
    simp only [children, List.forall_mem_append, List.forall_mem_cons] at h
    simp only [fieldValues, List.forall_mem_cons]
    exact ⟨Json.plain_getD h.1, Json.plain_optional id name, h.2.1, by simp⟩
  | _ =>
    simp only [children, fieldValues, List.forall_mem_cons, List.forall_mem_append,
      List.not_mem_nil, false_implies, implies_true, and_true] at h ⊢
    grind [Json.Plain.array, Json.plain_getD, plain_modifiersJson, TypeName.plain_toJson,
      LiteralValue.plain_toJson]

end Shape

namespace Node

theorem plain_toJson (n : Node) : n.toJson.Plain := by
  induction n using induction_children with
  | h n ih =>
    have hchildren : ∀ c ∈ (n.shape.map toJson).children, c.Plain := by
      intro c hc
      rw [Shape.children_map] at hc
      obtain ⟨m, hm, rfl⟩ := List.mem_map.1 hc
      exact ih m hm
    rw [toJson_eq]
    apply Json.Plain.object
    simp only [List.forall_mem_cons]
    refine ⟨.string _, n.span.plain_toJson, ?_⟩
    intro f hf
    exact Shape.plain_fieldValues hchildren f.2 (List.of_mem_zip hf).2

end Node

namespace TypeFact

theorem ofJson?_toJson (fact : TypeFact) : ofJson? .text fact.toJson = some fact := by
  cases fact with
  | known isValueType => rfl
  | unknown => rfl

theorem plain_toJson (fact : TypeFact) : fact.toJson.Plain := by
  cases fact with
  | known isValueType => exact .object (by simpa using .object (by simpa using .bool isValueType))
  | unknown => exact .string _

end TypeFact

namespace TypeEntry

theorem ofJson?_toJson (e : TypeEntry) : ofJson? .text e.toJson = some e := by
  obtain ⟨span, fact⟩ := e
  have hrecord : record? ["span", "fact"] (TypeEntry.toJson ⟨span, fact⟩) =
      some [("span", span.toJson), ("fact", fact.toJson)] := by
    simp [toJson, record?, isSingle]
  have hspan : Record.required? [("span", span.toJson), ("fact", fact.toJson)] "span" =
      some span.toJson := rfl
  have hfact : Record.required? [("span", span.toJson), ("fact", fact.toJson)] "fact" =
      some fact.toJson := rfl
  rw [ofJson?, bind_eq_of_some hrecord, bind_eq_of_some hspan, bind_eq_of_some span.ofJson?_toJson,
    bind_eq_of_some hfact, bind_eq_of_some fact.ofJson?_toJson]
  rfl

theorem plain_toJson (e : TypeEntry) : e.toJson.Plain := by
  apply Json.Plain.object
  simp only [List.forall_mem_cons]
  exact ⟨e.span.plain_toJson, e.fact.plain_toJson, by simp⟩

end TypeEntry

namespace TypeTable

theorem insertInto_of_lt {e : TypeEntry} {ds : List TypeEntry} (h : ∀ d ∈ ds, d.span.lt e.span) :
    e.insertInto ds = ds ++ [e] := by
  induction ds with
  | nil => rfl
  | cons d ds ih =>
    obtain ⟨hd, hds⟩ := List.forall_mem_cons.1 h
    have hne : e.span ≠ d.span := by
      intro heq
      rw [heq] at hd
      exact Span.lt_irrefl hd
    have hnlt : ¬ e.span.lt d.span := fun hlt => Span.lt_irrefl (Span.lt_trans hlt hd)
    rw [TypeEntry.insertInto, if_neg hne, if_neg hnlt, ih hds, List.cons_append]

theorem entries_foldl_insert {t : TypeTable} {es : List TypeEntry}
    (h : (t.entries ++ es).Pairwise fun a b => a.span.lt b.span) :
    (es.foldl insert t).entries = t.entries ++ es := by
  induction es generalizing t with
  | nil => rw [List.foldl_nil, List.append_nil]
  | cons e es ih =>
    have hinsert : (t.insert e).entries = t.entries ++ [e] := by
      apply insertInto_of_lt
      intro d hd
      exact (List.pairwise_append.1 h).2.2 d hd e List.mem_cons_self
    have hnext : (t.insert e).entries ++ es = t.entries ++ e :: es := by
      rw [hinsert, List.append_assoc, List.singleton_append]
    rw [List.foldl_cons, ih (hnext ▸ h), hnext]

theorem ofEntries_entries (t : TypeTable) : ofEntries t.entries = t := by
  have hentries : (ofEntries t.entries).entries = t.entries := entries_foldl_insert t.sorted
  obtain ⟨entries, sorted⟩ := t
  generalize ofEntries entries = u at hentries
  cases u
  cases hentries
  rfl

theorem ofJson?_toJson (t : TypeTable) : ofJson? .text t.toJson = some t := by
  have hentries : (t.entries.map TypeEntry.toJson).mapM (TypeEntry.ofJson? .text) =
      some t.entries := by
    rw [List.mapM_map]
    apply mapM_eq_some_self
    intro e _
    rw [Function.comp_apply, e.ofJson?_toJson]
  have hitems : items? t.toJson = some (t.entries.map TypeEntry.toJson) := rfl
  rw [ofJson?, bind_eq_of_some hitems, bind_eq_of_some hentries, ofEntries_entries]
  rfl

theorem plain_toJson (t : TypeTable) : t.toJson.Plain := by
  apply Json.Plain.array
  intro v hv
  obtain ⟨e, -, rfl⟩ := List.mem_map.1 hv
  exact e.plain_toJson

end TypeTable

namespace Document

theorem plain_toJson (d : Document) : d.toJson.Plain := by
  apply Json.Plain.object
  simp only [List.forall_mem_cons]
  exact ⟨d.tree.plain_toJson, d.types.plain_toJson, by simp⟩

theorem ofJson?_toJson (d : Document) :
    ofJson? d.toJson = if d.tree.toJson.depth < maxDepth then some d else none := by
  have hrecord : record? ["tree", "types"] d.toJson =
      some [("tree", d.tree.toJson), ("types", d.types.toJson)] := by
    simp [toJson, record?, isSingle]
  have htree : Record.required? [("tree", d.tree.toJson), ("types", d.types.toJson)] "tree" =
      some d.tree.toJson := rfl
  have htypes : List.lookup "types" [("tree", d.tree.toJson), ("types", d.types.toJson)] =
      some d.types.toJson := rfl
  rw [ofJson?, bind_eq_of_some hrecord, bind_eq_of_some htree]
  by_cases hdepth : d.tree.toJson.depth < maxDepth
  · have hguard : (guard (d.tree.toJson.depth < maxDepth ∧ d.tree.toJson.isLegible) : Option Unit) =
        some () := by
      simp [guard, hdepth, d.tree.plain_toJson.isLegible]
    rw [if_pos hdepth, bind_eq_of_some hguard, bind_eq_of_some d.tree.ofJson?_toJson, htypes]
    dsimp only
    rw [bind_eq_of_some d.types.ofJson?_toJson]
    rfl
  · have hguard : (guard (d.tree.toJson.depth < maxDepth ∧ d.tree.toJson.isLegible) : Option Unit) =
        none := by
      rw [guard, if_neg fun h => hdepth h.1]
      rfl
    rw [if_neg hdepth, hguard]
    rfl

theorem parse?_print (d : Document) :
    parse? d.print = if d.tree.toJson.depth < maxDepth then some d else none := by
  have hjson : Json.parse? d.print = some d.toJson := d.plain_toJson.parse?_print .pretty
  rw [parse?, bind_eq_of_some hjson, ofJson?_toJson]

end Document

end TreeLint
