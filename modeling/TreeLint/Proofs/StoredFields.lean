import Mathlib.Data.List.Forall2
import TreeLint.Proofs.StoredTrees

namespace TreeLint

open Codec

namespace Codec

variable {α β γ δ : Type}

/-- What there is at the left is there at the right too, up to `P`. -/
def Kept (P : α → β → Prop) (x : Option α) (y : Option β) : Prop :=
  ∀ a, x = some a → ∃ b, y = some b ∧ P a b

theorem Kept.pure {P : α → β → Prop} {a : α} {b : β} (h : P a b) : Kept P (pure a) (pure b) := by
  intro a' ha
  cases ha
  exact ⟨b, rfl, h⟩

theorem Kept.bind {P : α → β → Prop} {Q : γ → δ → Prop} {x : Option α} {y : Option β}
    {f : α → Option γ} {g : β → Option δ} (h : Kept P x y)
    (hfg : ∀ a b, P a b → Kept Q (f a) (g b)) : Kept Q (x >>= f) (y >>= g) := by
  intro c hc
  obtain ⟨a, ha, hc⟩ := Option.bind_eq_some_iff.1 hc
  obtain ⟨b, hb, hab⟩ := h a ha
  rw [bind_eq_of_some hb]
  exact hfg a b hab c hc

theorem Kept.bind_eq {Q : γ → δ → Prop} {x y : Option α} {f : α → Option γ} {g : α → Option δ}
    (h : Kept Eq x y) (hfg : ∀ a, Kept Q (f a) (g a)) : Kept Q (x >>= f) (y >>= g) := by
  apply h.bind
  rintro a _ rfl
  exact hfg a

theorem Kept.refl (x : Option α) : Kept Eq x x := fun a ha => ⟨a, ha, rfl⟩

theorem Kept.map {x y : Option α} (h : Kept Eq x y) (f : α → β) :
    Kept Eq (x.map f) (y.map f) := by
  intro b hb
  obtain ⟨a, ha, rfl⟩ := Option.map_eq_some_iff.1 hb
  obtain ⟨_, hy, rfl⟩ := h a ha
  exact ⟨f a, by rw [hy, Option.map_some], rfl⟩

theorem Kept.mapM {P : α → β → Prop} {f : α → Option γ} {g : β → Option γ} {as : List α}
    {bs : List β} (hfg : ∀ a b, P a b → Kept Eq (f a) (g b)) (h : List.Forall₂ P as bs) :
    Kept Eq (as.mapM f) (bs.mapM g) := by
  induction h with
  | nil => exact .refl _
  | cons hab _ ih =>
    rw [List.mapM_cons, List.mapM_cons]
    exact (hfg _ _ hab).bind_eq fun c => ih.bind_eq fun cs => .refl _

theorem Kept.option_mapM {P : α → β → Prop} {f : α → Option γ} {g : β → Option γ} {a : Option α}
    {b : Option β} (hfg : ∀ a b, P a b → Kept Eq (f a) (g b)) (h : Option.Rel P a b) :
    Kept Eq (a.mapM f) (b.mapM g) := by
  cases h with
  | none => exact .refl _
  | some hab =>
    rw [Option.mapM_some, Option.mapM_some]
    exact (hfg _ _ hab).map some

/-- What a stored tree holds at one place. -/
inductive Slot where
  | node | span | plain | tag | typeName | literal
  | optional (slot : Slot)
  | list (slot : Slot)
deriving DecidableEq, Repr

/-- What has to be the same about two values for the slot to be read alike, when `R` does for
nodes. -/
def Slot.Kept (R : Json → Json → Prop) : Slot → Json → Json → Prop
  | node => R
  | span => fun v w => Codec.Kept Eq (Span.ofJson? v) (Span.ofJson? w)
  | plain => Eq
  | tag => fun v w => Codec.Kept Eq (treeTag? v) (treeTag? w)
  | typeName => fun v w => Codec.Kept Eq (typeName? v) (typeName? w)
  | literal => fun v w => Codec.Kept Eq (literalValue? v) (literalValue? w)
  | optional slot => fun v w => v = .null ∧ w = .null ∨ v ≠ .null ∧ w ≠ .null ∧ slot.Kept R v w
  | list slot => fun v w => Codec.Kept (List.Forall₂ (slot.Kept R)) (items? v) (items? w)

/-- A field of a record, and what stands for it when it is missing: nothing, `null` or `[]`. -/
inductive Field where
  | required (name : String) (slot : Slot)
  | orNull (name : String) (slot : Slot)
  | orEmpty (name : String) (slot : Slot)
deriving DecidableEq, Repr

namespace Field

def name : Field → String
  | required name _ | orNull name _ | orEmpty name _ => name

def slot : Field → Slot
  | required _ slot => slot
  | orNull _ slot => .optional slot
  | orEmpty _ slot => .list slot

def default? : Field → Option Json
  | required .. => none
  | orNull .. => some .null
  | orEmpty .. => some (.array [])

/-- The value of the field in a record. -/
def value? (r : Record) (f : Field) : Option Json := (r.lookup f.name).or f.default?

def Kept (R : Json → Json → Prop) (r s : Record) (f : Field) : Prop :=
  Codec.Kept (f.slot.Kept R) (f.value? r) (f.value? s)

variable {R : Json → Json → Prop} {r s : Record} {n : String} {slot : Slot}

theorem Kept.required? (h : (required n slot).Kept R r s) :
    Codec.Kept (slot.Kept R) (r.required? n) (s.required? n) := by
  simpa only [Field.Kept, value?, Field.slot, name, default?, Option.or_none, Record.required?]
    using h

theorem Kept.string? (h : (required n .plain).Kept R r s) :
    Codec.Kept Eq (r.string? n) (s.string? n) :=
  h.required?.bind_eq fun _ => .refl _

theorem Kept.items? (h : (required n (.list slot)).Kept R r s) :
    Codec.Kept (List.Forall₂ (slot.Kept R)) (r.items? n) (s.items? n) :=
  h.required?.bind fun _ _ hvw => hvw

theorem items?_value? (r : Record) (n : String) (slot : Slot) :
    ((orEmpty n slot).value? r >>= Codec.items?) = r.itemsOrNone? n := by
  rw [value?, Record.itemsOrNone?]
  cases h : r.lookup n <;> simp [name, default?, h, Codec.items?]

theorem Kept.itemsOrNone? (h : (orEmpty n slot).Kept R r s) :
    Codec.Kept (List.Forall₂ (slot.Kept R)) (r.itemsOrNone? n) (s.itemsOrNone? n) := by
  rw [← items?_value? r n slot, ← items?_value? s n slot]
  exact h.bind fun _ _ hvw => hvw

theorem optional_eq_none (h : (orNull n slot).value? r = some .null) : r.optional n = none := by
  rw [Record.optional]
  cases hv : r.lookup n with
  | none => rfl
  | some v =>
    rw [value?, name, hv] at h
    cases h
    rfl

theorem optional_eq_some {v : Json} (h : (orNull n slot).value? r = some v) (hv : v ≠ .null) :
    r.optional n = some v := by
  rw [Record.optional]
  cases hw : r.lookup n with
  | none =>
    rw [value?, name, hw] at h
    cases h
    exact absurd rfl hv
  | some w =>
    rw [value?, name, hw] at h
    cases h
    split
    · rename_i hnull
      exact absurd (Option.some.inj hnull) hv
    · rfl

theorem Kept.optional (h : (orNull n slot).Kept R r s) :
    Option.Rel (slot.Kept R) (r.optional n) (s.optional n) := by
  obtain ⟨v, hv⟩ : ∃ v, (orNull n slot).value? r = some v := by
    rw [value?]
    cases r.lookup _ <;> exact ⟨_, rfl⟩
  obtain ⟨w, hw, ⟨rfl, rfl⟩ | ⟨hv', hw', hvw⟩⟩ := h v hv
  · rw [optional_eq_none hv, optional_eq_none hw]
    exact .none
  · rw [optional_eq_some hv hv', optional_eq_some hw hw']
    exact .some hvw

end Field

end Codec

/-- The fields of a kind besides `kind` and `span`. -/
def Kind.fields : Kind → List Field
  | compilationUnit => [.required "members" (.list .node)]
  | namespaceDecl => [.required "name" .plain, .required "members" (.list .node)]
  | classDecl =>
    [.orEmpty "modifiers" .tag, .required "name" .plain, .required "members" (.list .node)]
  | methodDecl =>
    [.orEmpty "modifiers" .tag, .required "return_type" .node, .required "name" .plain,
      .orEmpty "parameters" .node, .required "body" .node]
  | parameter => [.orNull "modifier" .tag, .required "ty" .node, .required "name" .plain]
  | typeRef => [.required "name" .typeName]
  | block => [.orEmpty "statements" .node]
  | ifStmt =>
    [.required "condition" .node, .required "then_branch" .node, .orNull "else_branch" .node]
  | returnStmt => [.orNull "value" .node]
  | exprStmt => [.required "expression" .node]
  | localDecl => [.required "ty" .node, .required "name" .plain, .orNull "initializer" .node]
  | tryStmt => [.required "block" .node, .orEmpty "catches" .node, .orNull "finally" .node]
  | catchClause =>
    [.orNull "exception_type" .node, .orNull "identifier" .plain, .required "block" .node]
  | binary => [.required "operator" .tag, .required "left" .node, .required "right" .node]
  | isPattern => [.required "expression" .node, .required "pattern" .node]
  | constantPattern => [.required "value" .node]
  | notPattern => [.required "pattern" .node]
  | assignment => [.required "target" .node, .required "value" .node]
  | objectCreation => [.required "ty" .node, .orEmpty "arguments" .node]
  | invocation => [.required "callee" .node, .orEmpty "arguments" .node]
  | memberAccess => [.required "target" .node, .required "member" .plain]
  | identifier => [.required "name" .plain]
  | literal => [.required "value" .literal]

/-- The fields of a node of a kind. -/
def Kind.recordFields (k : Kind) : List Field :=
  .required "kind" .plain :: .required "span" .span :: k.fields

theorem Kind.map_name_recordFields (k : Kind) :
    k.recordFields.map Field.name = "kind" :: "span" :: k.fieldNames := by
  cases k <;> rfl

def Span.recordFields : List Field := [.required "start" .plain, .required "end" .plain]

namespace Shape

variable {α β γ : Type}

/-- Two shapes with the same form, whose children correspond. -/
structure Corresponds (R : α → β → Prop) (s : Shape α) (t : Shape β) : Prop where
  form_eq : s.form = t.form
  children : List.Forall₂ R s.children t.children

theorem mapIdx_unit {R : α → β → Prop} {as : List α} {bs : List β} (h : List.Forall₂ R as bs) :
    as.mapIdx (fun _ _ => ()) = bs.mapIdx fun _ _ => () := by
  rw [mapIdx_const, mapIdx_const, List.map_const', List.map_const', h.length_eq]

theorem map_unit {R : α → β → Prop} {a : Option α} {b : Option β} (h : Option.Rel R a b) :
    a.map (fun _ => ()) = b.map fun _ => () := by
  cases h <;> rfl

theorem forall₂_toList {R : α → β → Prop} {a : Option α} {b : Option β} (h : Option.Rel R a b) :
    List.Forall₂ R a.toList b.toList := by
  cases h with
  | none => exact .nil
  | some h => exact .cons h .nil

theorem modifiers?_kept {R : Json → Json → Prop} {r s : Record}
    (h : (Field.orEmpty "modifiers" .tag).Kept R r s) : Kept Eq (modifiers? r) (modifiers? s) :=
  h.itemsOrNone?.bind fun _ _ hvs => .mapM (fun _ _ hvw => hvw.bind_eq fun _ => .refl _) hvs

/-- Records whose fields are read alike are records of corresponding shapes. -/
theorem ofRecord?_kept {R : Json → Json → Prop} {r s : Record} {k : Kind}
    (h : ∀ f ∈ k.fields, f.Kept R r s) :
    Kept (Corresponds R) (ofRecord? r k) (ofRecord? s k) := by
  -- For every kind, the fields are carried over in the order in which they are read.
  cases k <;> simp only [Kind.fields, List.forall_mem_cons] at h
  case compilationUnit =>
    obtain ⟨hmembers, -⟩ := h
    exact hmembers.items?.bind fun _ _ hms =>
      .pure ⟨congrArg compilationUnit (mapIdx_unit hms), hms⟩
  case namespaceDecl =>
    obtain ⟨hname, hmembers, -⟩ := h
    exact hname.string?.bind_eq fun name => hmembers.items?.bind fun _ _ hms =>
      .pure ⟨congrArg (namespaceDecl name) (mapIdx_unit hms), hms⟩
  case classDecl =>
    obtain ⟨hmodifiers, hname, hmembers, -⟩ := h
    exact (modifiers?_kept hmodifiers).bind_eq fun modifiers => hname.string?.bind_eq fun name =>
      hmembers.items?.bind fun _ _ hms =>
        .pure ⟨congrArg (classDecl modifiers name) (mapIdx_unit hms), hms⟩
  case methodDecl =>
    obtain ⟨hmodifiers, htype, hname, hparameters, hbody, -⟩ := h
    exact (modifiers?_kept hmodifiers).bind_eq fun modifiers => htype.required?.bind fun _ _ ht =>
      hname.string?.bind_eq fun name => hparameters.itemsOrNone?.bind fun _ _ hps =>
        hbody.required?.bind fun _ _ hb =>
          .pure ⟨congrArg (methodDecl modifiers () name · ()) (mapIdx_unit hps),
            .cons ht (List.rel_append hps (.cons hb .nil))⟩
  case parameter =>
    obtain ⟨hmodifier, htype, hname, -⟩ := h
    have hm : Kept Eq ((r.optional "modifier").mapM parameterModifier?)
        ((s.optional "modifier").mapM parameterModifier?) :=
      .option_mapM (fun _ _ hvw => hvw.bind_eq fun _ => .refl _) hmodifier.optional
    exact hm.bind_eq fun _ => htype.required?.bind fun _ _ ht => hname.string?.bind_eq fun _ =>
      .pure ⟨rfl, .cons ht .nil⟩
  case typeRef =>
    obtain ⟨hname, -⟩ := h
    exact hname.required?.bind fun _ _ hvw => hvw.bind_eq fun _ => .pure ⟨rfl, .nil⟩
  case block =>
    obtain ⟨hstatements, -⟩ := h
    exact hstatements.itemsOrNone?.bind fun _ _ hss =>
      .pure ⟨congrArg block (mapIdx_unit hss), hss⟩
  case ifStmt =>
    obtain ⟨hcondition, hthen, helse, -⟩ := h
    exact hcondition.required?.bind fun _ _ hc => hthen.required?.bind fun _ _ ht =>
      .pure ⟨congrArg (ifStmt () ()) (map_unit helse.optional),
        .cons hc (.cons ht (forall₂_toList helse.optional))⟩
  case returnStmt =>
    obtain ⟨hvalue, -⟩ := h
    exact .pure ⟨congrArg returnStmt (map_unit hvalue.optional), forall₂_toList hvalue.optional⟩
  case exprStmt =>
    obtain ⟨hexpression, -⟩ := h
    exact hexpression.required?.bind fun _ _ he => .pure ⟨rfl, .cons he .nil⟩
  case localDecl =>
    obtain ⟨htype, hname, hinitial, -⟩ := h
    exact htype.required?.bind fun _ _ ht => hname.string?.bind_eq fun name =>
      .pure ⟨congrArg (localDecl () name) (map_unit hinitial.optional),
        .cons ht (forall₂_toList hinitial.optional)⟩
  case tryStmt =>
    obtain ⟨hbody, hcatches, hfinally, -⟩ := h
    exact hbody.required?.bind fun _ _ hb => hcatches.itemsOrNone?.bind fun _ _ hcs =>
      .pure ⟨congrArg₂ (tryStmt ()) (mapIdx_unit hcs) (map_unit hfinally.optional),
        .cons hb (List.rel_append hcs (forall₂_toList hfinally.optional))⟩
  case catchClause =>
    obtain ⟨htype, hname, hbody, -⟩ := h
    have hn : Kept Eq ((r.optional "identifier").mapM string?)
        ((s.optional "identifier").mapM string?) := by
      refine .option_mapM ?_ hname.optional
      rintro v _ rfl
      exact .refl _
    exact hn.bind_eq fun name => hbody.required?.bind fun _ _ hb =>
      .pure ⟨congrArg (catchClause · name ()) (map_unit htype.optional),
        List.rel_append (forall₂_toList htype.optional) (.cons hb .nil)⟩
  case binary =>
    obtain ⟨hoperator, hleft, hright, -⟩ := h
    exact hoperator.required?.bind fun _ _ hvw =>
      .bind_eq (hvw.bind_eq fun _ => .refl _) fun _ => hleft.required?.bind fun _ _ hl =>
        hright.required?.bind fun _ _ hr => .pure ⟨rfl, .cons hl (.cons hr .nil)⟩
  case isPattern =>
    obtain ⟨hexpression, hpattern, -⟩ := h
    exact hexpression.required?.bind fun _ _ he => hpattern.required?.bind fun _ _ hp =>
      .pure ⟨rfl, .cons he (.cons hp .nil)⟩
  case constantPattern =>
    obtain ⟨hvalue, -⟩ := h
    exact hvalue.required?.bind fun _ _ hv => .pure ⟨rfl, .cons hv .nil⟩
  case notPattern =>
    obtain ⟨hpattern, -⟩ := h
    exact hpattern.required?.bind fun _ _ hp => .pure ⟨rfl, .cons hp .nil⟩
  case assignment =>
    obtain ⟨htarget, hvalue, -⟩ := h
    exact htarget.required?.bind fun _ _ ht => hvalue.required?.bind fun _ _ hv =>
      .pure ⟨rfl, .cons ht (.cons hv .nil)⟩
  case objectCreation =>
    obtain ⟨htype, harguments, -⟩ := h
    exact htype.required?.bind fun _ _ ht => harguments.itemsOrNone?.bind fun _ _ has =>
      .pure ⟨congrArg (objectCreation ()) (mapIdx_unit has), .cons ht has⟩
  case invocation =>
    obtain ⟨hcallee, harguments, -⟩ := h
    exact hcallee.required?.bind fun _ _ hc => harguments.itemsOrNone?.bind fun _ _ has =>
      .pure ⟨congrArg (invocation ()) (mapIdx_unit has), .cons hc has⟩
  case memberAccess =>
    obtain ⟨htarget, hmember, -⟩ := h
    exact htarget.required?.bind fun _ _ ht => hmember.string?.bind_eq fun _ =>
      .pure ⟨rfl, .cons ht .nil⟩
  case identifier =>
    obtain ⟨hname, -⟩ := h
    exact hname.string?.bind_eq fun _ => .pure ⟨rfl, .nil⟩
  case literal =>
    obtain ⟨hvalue, -⟩ := h
    exact hvalue.required?.bind fun _ _ hvw => hvw.bind_eq fun _ => .pure ⟨rfl, .nil⟩

theorem mapM_eq_some_iff {f : α → Option β} {as : List α} {bs : List β} :
    as.mapM f = some bs ↔ as.map f = bs.map some := by
  induction as generalizing bs with
  | nil => cases bs <;> simp
  | cons a as ih => cases bs <;> simp [List.mapM_cons, Option.bind_eq_some_iff, ih]

theorem option_mapM_eq_some_iff {f : α → Option β} {a : Option α} {b : Option β} :
    a.mapM f = some b ↔ a.map f = b.map some := by
  cases a <;> cases b <;> simp

theorem mapM?_id_map (f : α → Option β) (s : Shape α) : (s.map f).mapM? id = s.mapM? f := by
  have ho (a : Option α) : (a.map f).mapM id = a.mapM f := by cases a <;> rfl
  cases s <;> simp [map, mapIdx, mapIdx_const, mapM?, List.mapM_map, ho]

theorem map_eq_of_mapM? {f : α → Option β} {s : Shape α} {t : Shape β} (h : s.mapM? f = some t) :
    s.map f = t.map some := by
  cases s <;> simp only [mapM?, Option.bind_eq_bind, Option.bind_eq_some_iff, Option.pure_def,
    Option.some.injEq, mapM_eq_some_iff, option_mapM_eq_some_iff] at h <;>
    grind [map, mapIdx, mapIdx_const]

theorem mapM?_eq_some_iff {f : α → Option β} {s : Shape α} {t : Shape β} :
    s.mapM? f = some t ↔ s.form = t.form ∧ s.children.mapM f = some t.children := by
  rw [mapM_eq_some_iff]
  constructor
  · intro h
    have hmap := map_eq_of_mapM? h
    rw [← children_map, ← children_map, ← form_map f s, ← form_map some t, hmap]
    exact ⟨rfl, rfl⟩
  · rintro ⟨hform, hchildren⟩
    have hmap : s.map f = t.map some := by
      apply eq_of_form_eq
      · rw [form_map, form_map, hform]
      · rw [children_map, children_map, hchildren]
    rw [← mapM?_id_map, hmap]
    exact mapM?_map fun _ _ => rfl

theorem mapM?_congr {f g : α → Option β} {s : Shape α} (h : ∀ a ∈ s.children, f a = g a) :
    s.mapM? f = s.mapM? g := by
  apply Option.ext
  intro t
  rw [mapM?_eq_some_iff, mapM?_eq_some_iff, mapM_eq_some_iff, mapM_eq_some_iff,
    List.map_congr_left h]

theorem Corresponds.mapM?_kept {R : α → β → Prop} {f : α → Option γ} {g : β → Option γ}
    {s : Shape α} {t : Shape β} (h : Corresponds R s t) (hfg : ∀ a b, R a b → Kept Eq (f a) (g b)) :
    Kept Eq (s.mapM? f) (t.mapM? g) := by
  intro u hu
  obtain ⟨hform, hchildren⟩ := mapM?_eq_some_iff.1 hu
  obtain ⟨_, hread, heq⟩ := Kept.mapM hfg h.children _ hchildren
  rw [← heq] at hread
  exact ⟨u, mapM?_eq_some_iff.2 ⟨h.form_eq.symm.trans hform, hread⟩, rfl⟩

end Shape

theorem Codec.Slot.kept_self {R : Json → Json → Prop} {slot : Slot} {v : Json}
    (h : ∀ w : Json, w.depth ≤ v.depth → R w w) : slot.Kept R v v := by
  induction slot generalizing v with
  | node => exact h v (Nat.le_refl _)
  | plain => rfl
  | span => exact .refl _
  | tag => exact .refl _
  | typeName => exact .refl _
  | literal => exact .refl _
  | optional slot ih =>
    by_cases hv : v = .null
    · exact .inl ⟨hv, hv⟩
    · exact .inr ⟨hv, hv, ih h⟩
  | list slot ih =>
    intro items hitems
    refine ⟨items, hitems, List.forall₂_same.2 fun w hw => ih fun x hx => h x ?_⟩
    cases v <;> cases hitems
    exact Nat.le_trans hx (Nat.le_of_lt (Json.depth_lt_array hw))

theorem Codec.Slot.kept_refl {R : Json → Json → Prop} (hR : ∀ v, R v v) (slot : Slot) (v : Json) :
    slot.Kept R v v :=
  kept_self fun w _ => hR w

theorem Codec.Field.kept_self {R : Json → Json → Prop} {r : Record} {f : Field}
    (h : ∀ v, r.lookup f.name = some v → f.slot.Kept R v v) : f.Kept R r r := by
  intro v hv
  refine ⟨v, hv, ?_⟩
  obtain hv | ⟨-, hv⟩ := Option.or_eq_some_iff.1 hv
  · exact h v hv
  · cases f <;> cases hv
    · exact .inl ⟨rfl, rfl⟩
    · exact fun items hitems => ⟨items, hitems, by cases hitems; exact .nil⟩

theorem Codec.depth_lt_of_record? {names : List String} {j : Json} {r : Record} {f : String × Json}
    (h : record? names j = some r) (hf : f ∈ r) : f.2.depth < j.depth := by
  cases j <;> rw [record?] at h
  case object fields =>
    split at h <;> cases h
    exact Json.depth_lt_object hf
  case array items =>
    split at h <;> cases h
    exact Json.depth_lt_array (List.of_mem_zip hf).2
  all_goals cases h

theorem Shape.depth_lt_of_ofRecord? {names : List String} {j : Json} {r : Record} {k : Kind}
    {s : Shape Json} {c : Json} (hr : record? names j = some r) (hs : ofRecord? r k = some s)
    (hc : c ∈ s.children) : c.depth < j.depth := by
  -- The record is compared with itself, by a relation that holds of the values below `j` only.
  have hfields : ∀ f ∈ k.fields, f.Kept (fun v w => v = w ∧ v.depth < j.depth) r r := by
    intro f _
    apply Field.kept_self
    intro v hv
    obtain ⟨l, l', rfl, -⟩ := List.lookup_eq_some_iff.1 hv
    have hless := depth_lt_of_record? hr (List.mem_append_right l List.mem_cons_self)
    exact Slot.kept_self fun w hw => ⟨rfl, Nat.lt_of_le_of_lt hw hless⟩
  obtain ⟨t, ht, hst⟩ := ofRecord?_kept hfields s hs
  obtain rfl := Option.some.inj (hs.symm.trans ht)
  exact (List.forall₂_same.1 hst.children c hc).2

namespace Node

/-- Reads a node of a kind from a record, given how to read its children. -/
def ofRecord? (readChild? : Json → Option Node) (kind : Kind) (r : Record) : Option Node := do
  let span ← Span.ofJson? (← r.required? "span")
  let shape ← Shape.ofRecord? r kind
  return ⟨span, ← shape.mapM? readChild?⟩

/-- Reads a tree of any depth. -/
def read? (readKind? : Json → Option Kind) (j : Json) : Option Node :=
  ofJsonWithin? readKind? (j.depth + 1) j

variable {readKind? : Json → Option Kind} {j : Json} {m n : Nat}

theorem ofRecord?_congr {f g : Json → Option Node} {names : List String} {k : Kind} {r : Record}
    (hr : record? names j = some r) (h : ∀ c : Json, c.depth < j.depth → f c = g c) :
    ofRecord? f k r = ofRecord? g k r := by
  refine Option.bind_congr fun v _ => Option.bind_congr fun span _ =>
    Option.bind_congr fun s hs => ?_
  rw [Shape.mapM?_congr fun c hc => h c (Shape.depth_lt_of_ofRecord? hr hs hc)]

theorem ofJsonWithin?_succ : ofJsonWithin? readKind? (n + 1) j = (do
    let kind ← readKind? (← storedKind? j)
    let r ← record? ("kind" :: "span" :: kind.fieldNames) j
    ofRecord? (ofJsonWithin? innerKind? n) kind r) := rfl

/-- More fuel than the depth asks for changes nothing. -/
theorem ofJsonWithin?_eq_of_depth_lt (hm : j.depth < m) (hn : j.depth < n) :
    ofJsonWithin? readKind? m j = ofJsonWithin? readKind? n j := by
  induction m generalizing readKind? j n with
  | zero => exact absurd hm (Nat.not_lt_zero _)
  | succ m ih =>
    cases n with
    | zero => exact absurd hn (Nat.not_lt_zero _)
    | succ n =>
      rw [ofJsonWithin?_succ, ofJsonWithin?_succ]
      refine Option.bind_congr fun v _ => Option.bind_congr fun k _ =>
        Option.bind_congr fun r hr => ?_
      exact ofRecord?_congr hr fun c hc => ih (by omega) (by omega)

theorem read?_eq : read? readKind? j = (do
    let kind ← readKind? (← storedKind? j)
    let r ← record? ("kind" :: "span" :: kind.fieldNames) j
    ofRecord? (read? innerKind?) kind r) := by
  rw [read?, ofJsonWithin?_succ]
  refine Option.bind_congr fun v _ => Option.bind_congr fun k _ =>
    Option.bind_congr fun r hr => ?_
  exact ofRecord?_congr hr fun c hc => ofJsonWithin?_eq_of_depth_lt hc (Nat.lt_succ_self _)

end Node

end TreeLint
