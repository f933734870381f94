import Mathlib.Data.List.Nodup
import Mathlib.Logic.Relation
import TreeLint.Proofs.StoredFields

namespace TreeLint

open Codec

namespace Codec

/-- These are the known fields of a record with these fields that stands in a slot. -/
inductive IsRecord : Slot → Record → List Field → Prop where
  | node {fields : Record} {k : Kind} (h : fields.lookup "kind" = some (.string k.tag)) :
    IsRecord .node fields k.recordFields
  | span {fields : Record} : IsRecord .span fields Span.recordFields

/-- One change to the way the value in a slot is written. As fields may change places, it is enough
to say what may happen to the first of them. -/
inductive Restates : Slot → Json → Json → Prop where
  | tag (t : String) : Restates .tag (.string t) (.object [(t, .null)])
  | literal (t : String) : Restates .literal (.string t) (.object [(t, .null)])
  | predefined {v w : Json} (h : Restates .tag v w) :
    Restates .typeName (.object [("predefined", v)]) (.object [("predefined", w)])
  | nullable {v w : Json} (h : Restates .typeName v w) :
    Restates .typeName (.object [("nullable", v)]) (.object [("nullable", w)])
  | present {slot : Slot} {v w : Json} (h : Restates slot v w) : Restates (.optional slot) v w
  | item {slot : Slot} {v w : Json} {vs ws : List Json} (h : Restates slot v w) :
    Restates (.list slot) (.array (vs ++ v :: ws)) (.array (vs ++ w :: ws))
  | field {slot : Slot} {f : Field} {v w : Json} {fields : Record} {known : List Field}
    (hrecord : IsRecord slot ((f.name, v) :: fields) known) (hf : f ∈ known)
    (h : Restates f.slot v w) :
    Restates slot (.object ((f.name, v) :: fields)) (.object ((f.name, w) :: fields))
  | reorder {slot : Slot} {fields fields' : Record} {known : List Field}
    (hrecord : IsRecord slot fields known) (h : fields.Perm fields') :
    Restates slot (.object fields) (.object fields')
  | unknown {slot : Slot} {name : String} {v : Json} {fields : Record} {known : List Field}
    (hrecord : IsRecord slot fields known) (h : ∀ f ∈ known, f.name ≠ name) :
    Restates slot (.object fields) (.object ((name, v) :: fields))
  | leaveOut {slot : Slot} {f : Field} {v : Json} {fields : Record} {known : List Field}
    (hrecord : IsRecord slot ((f.name, v) :: fields) known) (hf : f ∈ known)
    (h : f.default? = some v) :
    Restates slot (.object ((f.name, v) :: fields)) (.object fields)

variable {R : Json → Json → Prop} {slot : Slot} {r s : Record} {known : List Field} {f : Field}
  {v w : Json} {n m : String}

theorem Restates.ne_null (h : Restates slot v w) : v ≠ .null ∧ w ≠ .null := by
  induction h with
  | present _ ih => exact ih
  | _ => exact ⟨Json.noConfusion, Json.noConfusion⟩

theorem typeName?_predefined (v : Json) : typeName? (.object [("predefined", v)]) =
    (do return .predefined (← PredefinedType.ofKeyword? (← treeTag? v))) := rfl

theorem typeName?_nullable (v : Json) :
    typeName? (.object [("nullable", v)]) = (typeName? v).map .nullable := by
  simp [typeName?, typeNameWithin?, variant?, Json.depth, Json.depthFields]

theorem literalValue?_kept (t : String) :
    Kept Eq (literalValue? (.string t)) (literalValue? (.object [(t, .null)])) := by
  intro value h
  simp only [literalValue?, variant?, treeTag?, plainTag?] at h
  split at h
  case h_1 ht =>
    cases ht
    exact ⟨value, h, rfl⟩
  case h_2 ht =>
    cases ht
    exact ⟨value, h, rfl⟩
  case h_3 => cases h

theorem isSingle_cons_of_ne (h : m ≠ n) : isSingle ((m, v) :: r) n = isSingle r n := by
  rw [isSingle, List.filter_cons_of_neg (by simpa using h), isSingle]

theorem lookup_cons_of_ne (h : m ≠ n) : List.lookup n ((m, v) :: r) = r.lookup n := by
  rw [List.lookup_cons, beq_false_of_ne h.symm]

theorem lookup_eq_filter (r : Record) (n : String) :
    r.lookup n = (r.filter fun f => f.1 == n).head?.map Prod.snd := by
  induction r with
  | nil => rfl
  | cons f r ih =>
    by_cases h : f.1 = n
    · rw [List.filter_cons_of_pos (by simpa using h), ← h, List.lookup_cons_self]
      rfl
    · rw [List.filter_cons_of_neg (by simpa using h), ← ih]
      exact lookup_cons_of_ne h

theorem isSingle_cons_self (h : isSingle ((n, v) :: r) n) :
    isSingle r n ∧ r.lookup n = none := by
  rw [isSingle, List.filter_cons_of_pos (by simp), decide_eq_true_eq, List.length_cons] at h
  have hnone : (r.filter fun f => f.1 == n) = [] := List.length_eq_zero_iff.1 (by omega)
  rw [isSingle, lookup_eq_filter, hnone]
  exact ⟨rfl, rfl⟩

theorem isSingle_cons_congr (v w : Json) (m n : String) :
    isSingle ((m, v) :: r) n = isSingle ((m, w) :: r) n := by
  rw [isSingle, isSingle, List.filter_cons, List.filter_cons]
  split <;> rfl

theorem isSingle_perm (h : r.Perm s) (n : String) : isSingle r n = isSingle s n := by
  rw [isSingle, isSingle, (h.filter _).length_eq]

theorem lookup_perm (h : r.Perm s) (hn : isSingle r n) : r.lookup n = s.lookup n := by
  have hperm := h.filter fun f => f.1 == n
  rw [isSingle, decide_eq_true_eq] at hn
  rw [lookup_eq_filter, lookup_eq_filter]
  generalize (r.filter fun f => f.1 == n) = found at hn hperm
  rcases found with _ | ⟨f, _ | ⟨g, fs⟩⟩
  · rw [hperm.nil_eq]
  · rw [List.singleton_perm.1 hperm]
  · rw [List.length_cons, List.length_cons] at hn
    omega

/-- Where `s` stands for `r`, every known field is there once as well and is read alike. -/
def RecordKept (R : Json → Json → Prop) (known : List Field) (r s : Record) : Prop :=
  ∀ f ∈ known, isSingle r f.name → isSingle s f.name ∧ f.Kept R r s

theorem Field.kept_of_lookup_eq (hR : ∀ v, R v v) (h : r.lookup f.name = s.lookup f.name) :
    f.Kept R r s := by
  rw [Field.Kept, value?, h]
  exact kept_self fun v _ => Slot.kept_refl hR f.slot v

theorem RecordKept.field (hR : ∀ v, R v v) (hknown : (known.map Field.name).Nodup)
    (hf : f ∈ known) (h : f.slot.Kept R v w) :
    RecordKept R known ((f.name, v) :: r) ((f.name, w) :: r) := by
  intro g hg hsingle
  by_cases hname : f.name = g.name
  · obtain rfl := List.inj_on_of_nodup_map hknown hf hg hname
    refine ⟨isSingle_cons_congr v w _ _ ▸ hsingle, ?_⟩
    rw [Field.Kept, Field.value?, Field.value?, List.lookup_cons_self, List.lookup_cons_self]
    exact .pure h
  · rw [isSingle_cons_of_ne hname] at hsingle
    refine ⟨by rw [isSingle_cons_of_ne hname, hsingle], Field.kept_of_lookup_eq hR ?_⟩
    rw [lookup_cons_of_ne hname, lookup_cons_of_ne hname]

theorem RecordKept.reorder (hR : ∀ v, R v v) (h : r.Perm s) : RecordKept R known r s := by
  intro f _ hsingle
  exact ⟨isSingle_perm h _ ▸ hsingle, Field.kept_of_lookup_eq hR (lookup_perm h hsingle)⟩

theorem RecordKept.unknown (hR : ∀ v, R v v) (h : ∀ f ∈ known, f.name ≠ n) :
    RecordKept R known r ((n, v) :: r) := by
  intro f hf hsingle
  refine ⟨by rw [isSingle_cons_of_ne (h f hf).symm, hsingle], Field.kept_of_lookup_eq hR ?_⟩
  rw [lookup_cons_of_ne (h f hf).symm]

theorem RecordKept.leaveOut (hR : ∀ v, R v v) (hknown : (known.map Field.name).Nodup)
    (hf : f ∈ known) (h : f.default? = some v) :
    RecordKept R known ((f.name, v) :: r) r := by
  intro g hg hsingle
  by_cases hname : f.name = g.name
  · obtain rfl := List.inj_on_of_nodup_map hknown hf hg hname
    obtain ⟨hsingle, hnone⟩ := isSingle_cons_self hsingle
    refine ⟨hsingle, ?_⟩
    rw [Field.Kept, Field.value?, Field.value?, List.lookup_cons_self, hnone, h]
    exact .pure (Slot.kept_refl hR f.slot v)
  · rw [isSingle_cons_of_ne hname] at hsingle
    refine ⟨hsingle, Field.kept_of_lookup_eq hR ?_⟩
    rw [lookup_cons_of_ne hname]

theorem RecordKept.record?_eq {fields : Record} (h : RecordKept R known fields s)
    (hr : record? (known.map Field.name) (.object fields) = some r) :
    r = fields ∧ record? (known.map Field.name) (.object s) = some s ∧
      ∀ f ∈ known, f.Kept R r s := by
  rw [record?] at hr ⊢
  split at hr
  · rename_i hsingle
    rw [List.all_map, List.all_eq_true] at hsingle
    cases hr
    refine ⟨rfl, if_pos ?_, fun f hf => (h f hf (hsingle f hf)).2⟩
    rw [List.all_map, List.all_eq_true]
    exact fun f hf => (h f hf (hsingle f hf)).1
  · cases hr

theorem IsRecord.nodup (h : IsRecord slot r known) : (known.map Field.name).Nodup := by
  cases h with
  | node =>
    rw [Kind.map_name_recordFields]
    exact Shape.nodup_fieldNames _
  | span => decide

end Codec

theorem Span.ofJson?_kept {R : Json → Json → Prop} {r s : Record}
    (h : RecordKept R recordFields r s) :
    Kept Eq (ofJson? (.object r)) (ofJson? (.object s)) := by
  intro span hspan
  obtain ⟨r', hr, hfound⟩ := Option.bind_eq_some_iff.1 hspan
  obtain ⟨rfl, hs, hfields⟩ := h.record?_eq hr
  simp only [recordFields, List.forall_mem_cons] at hfields
  obtain ⟨hstart, hstop, -⟩ := hfields
  have hread : Kept Eq _ _ := hstart.required?.bind_eq fun v =>
    Kept.bind_eq (.refl (offset? v)) fun start => hstop.required?.bind_eq fun w =>
      Kept.bind_eq (.refl (offset? w)) fun stop => .refl (some (Span.mk start stop))
  obtain ⟨_, hfound', rfl⟩ := hread span hfound
  exact ⟨span, (bind_eq_of_some hs).trans hfound', rfl⟩

namespace Node

/-- What is read from `v` is read from `w` too, at the root of a tree and below. -/
def ReadKept (v w : Json) : Prop :=
  ∀ readKind? : Json → Option Kind, (∀ k : Kind, readKind? (.string k.tag) = some k) →
    Kept Eq (read? readKind? v) (read? readKind? w)

theorem ReadKept.refl (v : Json) : ReadKept v v := fun _ _ => .refl _

variable {r s : Record} {k : Kind}

theorem ofRecord?_kept (h : ∀ f ∈ k.recordFields, f.Kept ReadKept r s) :
    Kept Eq (ofRecord? (read? innerKind?) k r) (ofRecord? (read? innerKind?) k s) := by
  rw [Kind.recordFields, List.forall_mem_cons, List.forall_mem_cons] at h
  obtain ⟨-, hspan, hfields⟩ := h
  exact hspan.required?.bind fun _ _ hvw => hvw.bind_eq fun _ =>
    (Shape.ofRecord?_kept hfields).bind fun _ _ hst =>
      (hst.mapM?_kept fun _ _ hvw => hvw innerKind? Kind.ofTag?_tag).bind_eq fun _ => .refl _

theorem read?_object {readKind? : Json → Option Kind}
    (hread : readKind? (.string k.tag) = some k) (hkind : r.lookup "kind" = some (.string k.tag)) :
    read? readKind? (.object r) =
      record? (k.recordFields.map Field.name) (.object r) >>= ofRecord? (read? innerKind?) k := by
  have hstored : storedKind? (.object r) = some (.string k.tag) := hkind
  rw [read?_eq, bind_eq_of_some hstored, bind_eq_of_some hread, Kind.map_name_recordFields]

theorem readKept_object (hkind : r.lookup "kind" = some (.string k.tag))
    (h : RecordKept ReadKept k.recordFields r s) : ReadKept (.object r) (.object s) := by
  intro readKind? hread n hn
  rw [read?_object (hread k) hkind] at hn
  obtain ⟨r', hr, hfound⟩ := Option.bind_eq_some_iff.1 hn
  obtain ⟨rfl, hs, hfields⟩ := h.record?_eq hr
  obtain ⟨_, hkind', rfl⟩ := (hfields _ List.mem_cons_self).required? _ hkind
  rw [read?_object (hread k) hkind', bind_eq_of_some hs]
  exact ofRecord?_kept hfields n hfound

end Node

namespace Codec

variable {slot : Slot} {r s : Record} {known : List Field} {v w : Json}

theorem IsRecord.kept (h : IsRecord slot r known) (hkept : RecordKept Node.ReadKept known r s) :
    slot.Kept Node.ReadKept (.object r) (.object s) := by
  cases h with
  | node hkind => exact Node.readKept_object hkind hkept
  | span => exact Span.ofJson?_kept hkept

/-- A value that is written in another way is read as before. -/
theorem Restates.kept (h : Restates slot v w) : slot.Kept Node.ReadKept v w := by
  -- The induction goes up from the place of the change. A record asks only for its known fields.
  induction h with
  | tag t => exact .refl (some t)
  | literal t => exact literalValue?_kept t
  | predefined _ ih =>
    change Kept Eq _ _
    rw [typeName?_predefined, typeName?_predefined]
    exact ih.bind_eq fun _ => .refl _
  | nullable _ ih =>
    change Kept Eq _ _
    rw [typeName?_nullable, typeName?_nullable]
    exact Kept.map ih _
  | present h ih => exact .inr ⟨h.ne_null.1, h.ne_null.2, ih⟩
  | @item slot _ _ vs ws _ ih =>
    have hself (us : List Json) : List.Forall₂ (slot.Kept Node.ReadKept) us us :=
      List.forall₂_same.2 fun v _ => Slot.kept_refl .refl slot v
    exact .pure (List.rel_append (hself vs) (.cons ih (hself ws)))
  | field hrecord hf _ ih => exact hrecord.kept (.field .refl hrecord.nodup hf ih)
  | reorder hrecord h => exact hrecord.kept (.reorder .refl h)
  | unknown hrecord h => exact hrecord.kept (.unknown .refl h)
  | leaveOut hrecord hf h => exact hrecord.kept (.leaveOut .refl hrecord.nodup hf h)

end Codec

namespace Node

theorem ofJson?_of_restates {v w : Json} {n : Node} (h : Restates .node v w)
    (hv : ofJson? v = some n) : ofJson? w = some n := by
  obtain ⟨_, hw, rfl⟩ := h.kept taggedKind? Kind.ofTag?_tag n hv
  exact hw

theorem ofJson?_of_reflTransGen {v w : Json} {n : Node}
    (h : Relation.ReflTransGen (Restates .node) v w) (hv : ofJson? v = some n) :
    ofJson? w = some n := by
  induction h with
  | refl => exact hv
  | tail _ hstep ih => exact ofJson?_of_restates hstep ih

/-- A written tree is read back, and so is every value that is got from it by writing it in other
ways. -/
theorem ofJson?_restated (n : Node) : ofJson? n.toJson = some n ∧
    ∀ j, Relation.ReflTransGen (Restates .node) n.toJson j → ofJson? j = some n := by
  refine ⟨ofJson?_toJson n, fun j h => ?_⟩
  exact ofJson?_of_reflTransGen h (ofJson?_toJson n)

/-- The declaration `int x`, with a span that ends before it starts. -/
def invertedDecl : Node :=
  ⟨⟨9, 3⟩, .localDecl ⟨⟨9, 7⟩, .typeRef (.predefined .int)⟩ "x" none⟩

/-- The declaration without the value it does not have, with a note, the type before the name and
the tag of the type as an object. -/
def invertedDeclRestated : Json :=
  .object [("note", .bool true),
    ("ty", .object [("name", .object [("predefined", .object [("int", .null)])]),
      ("span", Span.toJson ⟨9, 7⟩), ("kind", .string "type")]),
    ("name", .string "x"), ("span", Span.toJson ⟨9, 3⟩), ("kind", .string "local_declaration")]

theorem ofJson?_restated_invertedDecl :
    Relation.ReflTransGen (Restates .node) invertedDecl.toJson invertedDeclRestated ∧
      ofJson? invertedDeclRestated = some invertedDecl := by
  have hnode {fields : Record} (h : fields.lookup "kind" = some (.string Kind.localDecl.tag)) :=
    IsRecord.node h
  have htype {fields : Record} (h : fields.lookup "kind" = some (.string Kind.typeRef.tag)) :=
    IsRecord.node h
  have hrun : Relation.ReflTransGen (Restates .node) invertedDecl.toJson invertedDeclRestated := by
    refine .head (.reorder (hnode rfl) (List.reverse_perm _).symm) ?_
    refine .head (.leaveOut (f := .orNull "initializer" .node) (hnode rfl) ?_ rfl) ?_
    · decide
    refine .head (.reorder (hnode rfl) (.swap _ _ _)) ?_
    refine .head (.field (f := .required "ty" .node) (hnode rfl) ?_
      (.reorder (htype rfl) (List.reverse_perm _).symm)) ?_
    · decide
    refine .head (.field (f := .required "ty" .node) (hnode rfl) ?_
      (.field (f := .required "name" .typeName) (htype rfl) ?_ (.predefined (.tag "int")))) ?_
    · decide
    · decide
    refine .single (.unknown (hnode rfl) ?_)
    decide
  exact ⟨hrun, (ofJson?_restated invertedDecl).2 _ hrun⟩

end Node

end TreeLint
