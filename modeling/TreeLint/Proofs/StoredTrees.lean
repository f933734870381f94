import TreeLint.Codec.Tree
import TreeLint.Proofs.JsonText

namespace TreeLint

open Codec

namespace Json

variable {v : Json} {items : List Json} {f : String × Json} {fields : List (String × Json)}

theorem depth_lt_array (h : v ∈ items) : v.depth < (array items).depth := by
  rw [depth, Nat.lt_succ_iff]
  induction items with
  | nil => cases h
  | cons w items ih =>
    rw [depthItems]
    rcases List.mem_cons.1 h with rfl | h
    · exact Nat.le_max_left _ _
    · exact Nat.le_trans (ih h) (Nat.le_max_right _ _)

theorem depth_lt_object (h : f ∈ fields) : f.2.depth < (object fields).depth := by
  rw [depth, Nat.lt_succ_iff]
  induction fields with
  | nil => cases h
  | cons g fields ih =>
    rw [depthFields]
    rcases List.mem_cons.1 h with rfl | h
    · exact Nat.le_max_left _ _
    · exact Nat.le_trans (ih h) (Nat.le_max_right _ _)

end Json

namespace Codec

variable {α β : Type}

theorem bind_eq_of_some {x : Option α} {f : α → Option β} {a : α} (h : x = some a) :
    (x >>= f) = f a := by
  rw [h]
  rfl

theorem mapM_eq_some_self {f : α → Option α} {as : List α} (h : ∀ a ∈ as, f a = some a) :
    as.mapM f = some as := by
  induction as with
  | nil => rfl
  | cons a as ih =>
    obtain ⟨ha, has⟩ := List.forall_mem_cons.1 h
    rw [List.mapM_cons, ha, ih has]
    rfl

theorem option_mapM_eq_some_self {f : α → β} {g : β → Option α} {a : Option α}
    (h : ∀ b ∈ a.toList, g (f b) = some b) : (a.map f).mapM g = some a := by
  cases a with
  | none => rfl
  | some b =>
    rw [Option.map_some, Option.mapM_some, h b List.mem_cons_self]
    rfl

theorem record?_zip {names : List String} {values : List Json} (hnames : names.Nodup)
    (hlength : names.length = values.length) :
    record? names (.object (names.zip values)) = some (names.zip values) := by
  have hsingle : ∀ name ∈ names, isSingle (names.zip values) name := by
    intro name _
    rw [isSingle, decide_eq_true_eq, ← List.countP_eq_length_filter]
    have hcount := List.nodup_iff_count.1 hnames name
    rw [← List.map_fst_zip (Nat.le_of_eq hlength), List.count, List.countP_map] at hcount
    exact hcount
  rw [record?, if_pos (List.all_eq_true.2 hsingle)]

theorem typeNameWithin?_toJson {name : TypeName} {depth : Nat} (h : name.toJson.depth < depth) :
    typeNameWithin? depth name.toJson = some name := by
  induction name generalizing depth with
  | predefined type =>
    cases depth with
    | zero => exact absurd h (Nat.not_lt_zero _)
    | succ depth => cases type <;> rfl
  | named name =>
    cases depth with
    | zero => exact absurd h (Nat.not_lt_zero _)
    | succ depth => rfl
  | nullable inner ih =>
    cases depth with
    | zero => exact absurd h (Nat.not_lt_zero _)
    | succ depth =>
      have hinner : inner.toJson.depth < inner.nullable.toJson.depth :=
        Json.depth_lt_object (f := ("nullable", inner.toJson)) (List.mem_singleton.2 rfl)
      change (typeNameWithin? depth inner.toJson).map TypeName.nullable = _
      rw [ih (by omega)]
      rfl

theorem typeName?_toJson (name : TypeName) : typeName? name.toJson = some name :=
  typeNameWithin?_toJson (Nat.lt_succ_self _)

theorem literalValue?_toJson (value : LiteralValue) : literalValue? value.toJson = some value := by
  cases value with
  | int value =>
    have hlow := value.le_toInt
    have hhigh := value.toInt_lt
    change (int64? (.int value.toInt)).map LiteralValue.int = _
    rw [int64?, if_pos (by omega), Int64.ofInt_toInt]
    rfl
  | _ => rfl

theorem offset?_toNat (offset : UInt32) : offset? (.int offset.toNat) = some offset := by
  have hbound := offset.toNat_lt
  rw [offset?, if_pos (by omega), Int.toNat_natCast, UInt32.ofNat_toNat]

end Codec

theorem Span.ofJson?_toJson (s : Span) : Span.ofJson? s.toJson = some s := by
  obtain ⟨start, stop⟩ := s
  have hrecord : record? ["start", "end"] (Span.toJson ⟨start, stop⟩) =
      some [("start", .int start.toNat), ("end", .int stop.toNat)] := by
    simp [toJson, record?, isSingle]
  have hstart : Record.required? [("start", .int start.toNat), ("end", .int stop.toNat)] "start" =
      some (.int start.toNat) := rfl
  have hstop : Record.required? [("start", .int start.toNat), ("end", .int stop.toNat)] "end" =
      some (.int stop.toNat) := rfl
  rw [ofJson?, bind_eq_of_some hrecord, bind_eq_of_some hstart,
    bind_eq_of_some (offset?_toNat start), bind_eq_of_some hstop,
    bind_eq_of_some (offset?_toNat stop)]
  rfl

namespace Shape

variable {α β : Type}

theorem mapM?_map {f : α → β} {g : β → Option α} {s : Shape α}
    (h : ∀ a ∈ s.children, g (f a) = some a) : (s.map f).mapM? g = some s := by
  cases s <;> simp only [children, List.forall_mem_cons, List.forall_mem_append] at h <;>
    simp +contextual [map, mapIdx, mapIdx_const, mapM?, mapM_eq_some_self,
      option_mapM_eq_some_self, h]

theorem modifiers?_eq {r : Record} {modifiers : List Modifier}
    (h : r.lookup "modifiers" = some (modifiersJson modifiers)) :
    modifiers? r = some modifiers := by
  rw [modifiers?, Record.itemsOrNone?, h, modifiersJson]
  change (modifiers.map fun m => Json.string m.keyword).mapM modifier? = _
  rw [List.mapM_map]
  apply mapM_eq_some_self
  intro m _
  cases m <;> rfl

theorem optional_eq {r : Record} {name : String} {child : Option Json}
    (hr : r.lookup name = some (child.getD .null)) (h : ∀ c ∈ child.toList, c ≠ .null) :
    r.optional name = child := by
  rw [Record.optional, hr]
  cases child with
  | none => rfl
  | some c =>
    rw [Option.getD_some]
    split
    · rename_i hnull
      exact absurd (Option.some.inj hnull) (h c List.mem_cons_self)
    · rfl

theorem ofRecord?_fields (s : Shape Json) (kind span : Json) (h : ∀ c ∈ s.children, c ≠ .null) :
    ofRecord? (("kind", kind) :: ("span", span) :: s.kind.fieldNames.zip s.fieldValues) s.kind =
      some s := by
  cases s with
  | classDecl modifiers name members =>
    rw [Shape.kind, ofRecord?]
    exact bind_eq_of_some (modifiers?_eq rfl)
  | methodDecl modifiers returnType name parameters body =>
    rw [Shape.kind, ofRecord?]
    exact bind_eq_of_some (modifiers?_eq rfl)
  | parameter modifier type name =>
    cases modifier with
    | none => rfl
    | some m => cases m <;> rfl
  | typeRef name =>
    exact bind_eq_of_some (typeName?_toJson name)
  | ifStmt condition thenBranch elseBranch =>
    simp only [children, List.forall_mem_cons] at h
    exact congrArg (fun e => some (ifStmt condition thenBranch e)) (optional_eq rfl h.2.2)
  | returnStmt value =>
    simp only [children] at h
    exact congrArg (fun e => some (returnStmt e)) (optional_eq rfl h)
  | localDecl type name initializer =>
    simp only [children, List.forall_mem_cons] at h
    exact congrArg (fun e => some (localDecl type name e)) (optional_eq rfl h.2)
  | tryStmt body catches finalizer =>
    simp only [children, List.forall_mem_cons, List.forall_mem_append] at h
    exact congrArg (fun e => some (tryStmt body catches e)) (optional_eq rfl h.2.2)
  | catchClause exceptionType name body =>
    simp only [children, List.forall_mem_cons, List.forall_mem_append] at h
    cases name with
    | none => exact congrArg (fun e => some (catchClause e none body)) (optional_eq rfl h.1)
    | some name =>
      exact congrArg (fun e => some (catchClause e (some name) body)) (optional_eq rfl h.1)
  | binary op left right => cases op <;> rfl
  | literal value =>
    exact bind_eq_of_some (literalValue?_toJson value)
  | _ => rfl

theorem nodup_fieldNames (k : Kind) : ("kind" :: "span" :: k.fieldNames).Nodup := by
  cases k <;> decide

theorem length_fieldValues (s : Shape Json) : s.kind.fieldNames.length = s.fieldValues.length := by
  cases s <;> rfl

theorem exists_fieldValue {s : Shape Json} {c : Json} (h : c ∈ s.children) :
    ∃ v ∈ s.fieldValues, v = c ∨ ∃ items, v = .array items ∧ c ∈ items := by
  cases s <;> simp only [children, fieldValues] at h ⊢ <;> grind [Option.getD]

theorem depth_lt_record (span : Span) {s : Shape Json} {c : Json} (h : c ∈ s.children) :
    c.depth < (Node.record span s).depth := by
  obtain ⟨v, hv, hc⟩ := exists_fieldValue h
  have hle : c.depth ≤ v.depth := by
    rcases hc with rfl | ⟨items, rfl, hc⟩
    · exact Nat.le_refl _
    · exact Nat.le_of_lt (Json.depth_lt_array hc)
  rw [← List.map_snd_zip (Nat.le_of_eq (length_fieldValues s).symm)] at hv
  obtain ⟨f, hf, rfl⟩ := List.mem_map.1 hv
  apply Nat.lt_of_le_of_lt hle
  apply Json.depth_lt_object
  exact List.mem_cons_of_mem _ (List.mem_cons_of_mem _ hf)

end Shape

namespace Node

theorem toJson_eq (n : Node) : n.toJson = record n.span (n.shape.map toJson) := fold_eq _ n

theorem toJson_ne_null (n : Node) : n.toJson ≠ .null := by
  rw [toJson_eq, record]
  exact Json.noConfusion

theorem depth_toJson_lt {c n : Node} (h : c ∈ n.children) : c.toJson.depth < n.toJson.depth := by
  rw [toJson_eq n]
  apply Shape.depth_lt_record
  rw [Shape.children_map]
  exact List.mem_map_of_mem h

theorem record?_record (span : Span) (s : Shape Json) :
    record? ("kind" :: "span" :: s.kind.fieldNames) (record span s) =
      some (("kind", .string s.kind.tag) :: ("span", span.toJson) ::
        s.kind.fieldNames.zip s.fieldValues) := by
  have hlength : ("kind" :: "span" :: s.kind.fieldNames).length =
      (Json.string s.kind.tag :: span.toJson :: s.fieldValues).length := by
    simp only [List.length_cons, Shape.length_fieldValues]
  exact record?_zip (Shape.nodup_fieldNames s.kind) hlength

/-- A record whose children can be read is the record of a node. -/
theorem ofJsonWithin?_record {readKind? : Json → Option Kind} {span : Span} {s : Shape Json}
    {shape : Shape Node} {depth : Nat}
    (hkind : ∀ k : Kind, readKind? (.string k.tag) = some k) (hnull : ∀ c ∈ s.children, c ≠ .null)
    (hshape : s.mapM? (ofJsonWithin? innerKind? depth) = some shape) :
    ofJsonWithin? readKind? (depth + 1) (record span s) = some ⟨span, shape⟩ := by
  have hstored : storedKind? (record span s) = some (.string s.kind.tag) := rfl
  have hspan : Record.required? (("kind", .string s.kind.tag) :: ("span", span.toJson) ::
      s.kind.fieldNames.zip s.fieldValues) "span" = some span.toJson := rfl
  rw [ofJsonWithin?, bind_eq_of_some hstored, bind_eq_of_some (hkind s.kind),
    bind_eq_of_some (record?_record span s), bind_eq_of_some hspan,
    bind_eq_of_some span.ofJson?_toJson, bind_eq_of_some (Shape.ofRecord?_fields s _ _ hnull),
    bind_eq_of_some hshape]
  rfl

theorem ofJsonWithin?_toJson {readKind? : Json → Option Kind} {n : Node} {depth : Nat}
    (hkind : ∀ k : Kind, readKind? (.string k.tag) = some k) (h : n.toJson.depth < depth) :
    ofJsonWithin? readKind? depth n.toJson = some n := by
  induction n using induction_children generalizing readKind? depth with
  | h n ih =>
    cases depth with
    | zero => exact absurd h (Nat.not_lt_zero _)
    | succ depth =>
      have hchildren : ∀ c ∈ n.children, ofJsonWithin? innerKind? depth c.toJson = some c := by
        intro c hc
        have hless := depth_toJson_lt hc
        exact ih c hc Kind.ofTag?_tag (by omega)
      have hnull : ∀ c ∈ (n.shape.map toJson).children, c ≠ .null := by
        intro c hc
        rw [Shape.children_map] at hc
        obtain ⟨m, -, rfl⟩ := List.mem_map.1 hc
        exact toJson_ne_null m
      rw [toJson_eq, ofJsonWithin?_record hkind hnull (Shape.mapM?_map hchildren)]
      cases n
      rfl

/-- A written tree is read back, whatever its depth is. -/
theorem ofJson?_toJson (n : Node) : ofJson? n.toJson = some n :=
  ofJsonWithin?_toJson Kind.ofTag?_tag (Nat.lt_succ_self _)

end Node

end TreeLint
