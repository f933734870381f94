import TreeLint.Proofs.Convergence
import TreeLint.Proofs.StoredTrees

namespace TreeLint

namespace Json

variable {k : Nat}

/-- The second value is deeper than the first one by so many levels at most. -/
def DeeperBy (k : Nat) (v w : Json) : Prop := w.depth ≤ v.depth + k

theorem depthItems_deeperBy {vs ws : List Json} (h : List.Forall₂ (DeeperBy k) vs ws) :
    depthItems ws ≤ depthItems vs + k := by
  induction h with
  | nil => exact Nat.zero_le _
  | cons hv _ ih =>
    rw [DeeperBy] at hv
    rw [depthItems, depthItems]
    omega

theorem depthFields_zip {names : List String} {values : List Json}
    (h : names.length = values.length) : depthFields (names.zip values) = depthItems values := by
  induction values generalizing names with
  | nil =>
    rw [List.zip_nil_right]
    rfl
  | cons v values ih =>
    cases names with
    | nil => cases h
    | cons name names =>
      rw [List.zip_cons_cons, depthFields, depthItems, ih (Nat.succ.inj h)]

theorem depthItems_append (vs ws : List Json) :
    depthItems (vs ++ ws) = max (depthItems vs) (depthItems ws) := by
  induction vs with
  | nil => exact (Nat.zero_max _).symm
  | cons v vs ih => rw [List.cons_append, depthItems, depthItems, ih, Nat.max_assoc]

theorem deeperBy_refl (v : Json) : DeeperBy k v v := Nat.le_add_right _ _

theorem deeperBy_array {ps : List (Json × Json)} (h : ∀ p ∈ ps, DeeperBy k p.1 p.2) :
    DeeperBy k (array (ps.map Prod.fst)) (array (ps.map Prod.snd)) := by
  have hitems := depthItems_deeperBy (List.forall₂_map_left_iff.2
    (List.forall₂_map_right_iff.2 (List.forall₂_same.2 h)))
  rw [DeeperBy, depth, depth]
  omega

theorem deeperBy_getD {p : Option (Json × Json)} (h : ∀ q ∈ p.toList, DeeperBy k q.1 q.2) :
    DeeperBy k ((p.map Prod.fst).getD .null) ((p.map Prod.snd).getD .null) := by
  cases p with
  | none => exact deeperBy_refl _
  | some q => exact h q List.mem_cons_self

end Json

open Json (DeeperBy)

namespace Shape

theorem fieldValues_deeperBy {k : Nat} {s : Shape (Json × Json)}
    (h : ∀ p ∈ s.children, DeeperBy k p.1 p.2) :
    List.Forall₂ (DeeperBy k) (s.map Prod.fst).fieldValues (s.map Prod.snd).fieldValues := by
  cases s <;>
    simp only [children, List.forall_mem_cons, List.forall_mem_append, List.not_mem_nil,
      false_implies, implies_true, and_true] at h <;>
    simp +contextual [map, mapIdx, mapIdx_const, fieldValues, h, Json.deeperBy_refl,
      Json.deeperBy_array, Json.deeperBy_getD]

end Shape

namespace Node

variable {m n new : Node} {k : Nat} {g : Nat → Node → Node} {edits : Edits} {span : Span}

theorem depth_record (span : Span) (s : Shape Json) :
    (record span s).depth = max 1 (Json.depthItems s.fieldValues) + 1 := by
  rw [record, Json.depth, Json.depthFields, Json.depthFields,
    Json.depthFields_zip s.length_fieldValues]
  change max 0 (max 1 _) + 1 = _
  rw [Nat.zero_max]

theorem depth_mk (span : Span) (shape : Shape Node) : (⟨span, shape⟩ : Node).toJson.depth =
    max 1 (Json.depthItems (shape.map toJson).fieldValues) + 1 := by
  rw [toJson_eq, depth_record]

theorem depth_block (span : Span) (statements : List Node) :
    (⟨span, .block statements⟩ : Node).toJson.depth =
      Json.depthItems (statements.map toJson) + 2 := by
  rw [depth_mk]
  simp only [Shape.map, Shape.mapIdx, Shape.mapIdx_const, Shape.fieldValues, Json.depthItems,
    Json.depth]
  omega

theorem two_le_depth (n : Node) : 2 ≤ n.toJson.depth := by
  rw [toJson_eq, depth_record]
  omega

theorem deeperBy_mapIdx
    (h : ∀ i c, n.children[i]? = some c → DeeperBy k c.toJson (g i c).toJson) :
    DeeperBy k n.toJson (⟨n.span, n.shape.mapIdx g⟩ : Node).toJson := by
  let both : Shape (Json × Json) := n.shape.mapIdx fun i c => (c.toJson, (g i c).toJson)
  have hboth : ∀ p ∈ both.children, DeeperBy k p.1 p.2 := by
    intro p hp
    rw [Shape.children_mapIdx] at hp
    obtain ⟨i, hi, rfl⟩ := List.mem_mapIdx.1 hp
    exact h i _ (List.getElem?_eq_getElem hi)
  have hold : both.map Prod.fst = n.shape.map toJson := Shape.mapIdx_mapIdx _ _ _
  have hnew : both.map Prod.snd = (n.shape.mapIdx g).map toJson := by
    rw [Shape.map, Shape.map, Shape.mapIdx_mapIdx, Shape.mapIdx_mapIdx]
  have hfields := Json.depthItems_deeperBy (Shape.fieldValues_deeperBy hboth)
  rw [hold, hnew] at hfields
  rw [DeeperBy, toJson_eq n, depth_mk, depth_record]
  omega

theorem deeperBy_mapChildren {f : Node → Node}
    (h : ∀ c ∈ n.children, DeeperBy k c.toJson (f c).toJson) :
    DeeperBy k n.toJson (n.mapChildren f).toJson :=
  deeperBy_mapIdx fun _ c hc => h c (List.mem_of_getElem? hc)

theorem deeperBy_replacing (h : ∀ p new m, edits p = some new → n.subtree? p = some m →
    DeeperBy k m.toJson new.toJson) : DeeperBy k n.toJson (n.replacing edits).toJson :=
  replacing_induction (fun _ _ => deeperBy_mapIdx) h

end Node

namespace ValueEquality

theorem depth_patternFor?_le {op : Operator} {right pattern : Node}
    (h : patternFor? op right = some pattern) :
    pattern.toJson.depth ≤ right.toJson.depth + 2 := by
  have hconstant : (⟨right.span, .constantPattern right⟩ : Node).toJson.depth ≤
      right.toJson.depth + 1 := by
    have hright := right.two_le_depth
    simp only [Node.depth_mk, Shape.map, Shape.mapIdx, Shape.fieldValues, Json.depthItems]
    omega
  cases op with
  | equals =>
    cases h
    exact Nat.le_succ_of_le hconstant
  | notEquals =>
    cases h
    rw [Node.depth_mk]
    simp only [Shape.map, Shape.mapIdx, Shape.fieldValues, Json.depthItems]
    omega
  | _ => cases h

theorem deeperBy_of_synthesize {n m : Node} (h : synthesize n = .ok m) :
    DeeperBy 8 n.toJson m.toJson := by
  cases becomes_of_synthesize h with
  | pattern hpattern =>
    have hpattern := depth_patternFor?_le hpattern
    rw [DeeperBy, Node.depth_mk, Node.depth_mk]
    simp only [Shape.map, Shape.mapIdx, Shape.fieldValues, Json.depthItems, Json.depth]
    omega

end ValueEquality

namespace TryMethod

variable {n m new : Node} {span : Span}

theorem deeperBy_assignment {value : Option Node} (hshape : n.shape = .returnStmt value)
    (h : assignment n.span value = .ok new) : DeeperBy 1 n.toJson new.toJson := by
  obtain ⟨span, shape⟩ := n
  cases hshape
  cases value with
  | none => cases h
  | some value =>
    cases h
    have hvalue := value.two_le_depth
    simp [DeeperBy, Node.depth_mk, Shape.map, Shape.mapIdx, Shape.fieldValues, Json.depthItems,
      Json.depth]
    omega

theorem deeperBy_fixIf {thenBranch : Node} (h : fixIf n thenBranch = .ok new) :
    DeeperBy 1 n.toJson new.toJson := by
  cases becomes_of_fixIf h with
  | unchanged => exact Json.deeperBy_refl _
  | assigned htarget hshape hassigned hnew =>
    rw [Node.eq_replacing_of_replace? htarget hnew]
    apply Node.deeperBy_replacing
    intro q new' m hput hm
    obtain ⟨rfl, rfl⟩ := Edits.eq_of_put_eq_some hput
    cases hm.symm.trans htarget
    exact deeperBy_assignment hshape hassigned

theorem deeperBy_fixStatement (h : fixStatement n = .ok new) : DeeperBy 1 n.toJson new.toJson := by
  rw [fixStatement.eq_def] at h
  split at h
  · rename_i value hshape
    exact deeperBy_assignment hshape h
  · exact deeperBy_fixIf h
  · cases h
    exact Json.deeperBy_refl _

theorem depth_initialization (place : Span) : (initialization place).toJson.depth = 4 := rfl

theorem depth_returnBool (place : Span) (value : Bool) :
    (returnBool place value).toJson.depth = 3 := rfl

theorem depth_failureClause (place : Span) : (failureClause place).toJson.depth = 6 := rfl

theorem depth_outParameter (place typeSpan : Span) (type : TypeName) :
    (outParameter place type).toJson.depth =
      (⟨typeSpan, .typeRef type⟩ : Node).toJson.depth + 1 := by
  simp only [outParameter, Node.depth_mk, Shape.map, Shape.mapIdx, Shape.fieldValues,
    Json.depthItems, Json.depth, Option.map_some, Option.getD_some]
  omega

theorem deeperBy_fixBody {statements : List Node} {body : Node}
    (h : fixBody span statements = .ok body) :
    DeeperBy 8 (⟨span, .block statements⟩ : Node).toJson body.toJson := by
  rw [fixBody, bind_eq_ok] at h
  obtain ⟨fixed, hfixed, h⟩ := h
  cases h
  have hstatements : Json.depthItems (fixed.map Node.toJson) ≤
      Json.depthItems (statements.map Node.toJson) + 1 := by
    apply Json.depthItems_deeperBy
    rw [List.forall₂_map_left_iff, List.forall₂_map_right_iff]
    exact (mapM_eq_ok.1 hfixed).imp fun _ _ => deeperBy_fixStatement
  have hguarded (guarded : Node) : (⟨span, .tryStmt guarded [failureClause (.point span.stop)]
      none⟩ : Node).toJson.depth = max guarded.toJson.depth 7 + 1 := by
    rw [Node.depth_mk]
    simp only [Shape.map, Shape.mapIdx, Shape.mapIdx_const, Shape.fieldValues, Json.depthItems,
      Json.depth, List.map_cons, List.map_nil, depth_failureClause, Option.map_none,
      Option.getD_none]
    omega
  rw [DeeperBy, Node.depth_block, Node.depth_block]
  simp only [List.map_cons, List.map_nil, List.map_append, Json.depthItems,
    Json.depthItems_append, Node.depth_block, depth_initialization, depth_returnBool, hguarded]
  omega

theorem deeperBy_of_synthesize (h : synthesize n = .ok m) : DeeperBy 8 n.toJson m.toJson := by
  cases becomes_of_synthesize h with
  | @method span typeSpan bodySpan modifiers type name parameters statements body hbody =>
    have hbody := deeperBy_fixBody hbody
    have hbool : (⟨typeSpan, .typeRef (.predefined .bool)⟩ : Node).toJson.depth = 2 := rfl
    rw [DeeperBy] at hbody ⊢
    rw [Node.depth_mk, Node.depth_mk]
    simp only [Shape.map, Shape.mapIdx, Shape.mapIdx_const, Shape.fieldValues, Json.depthItems,
      Json.depthItems_append, Json.depth, List.map_append, List.map_cons, List.map_nil, hbool,
      depth_outParameter _ typeSpan]
    omega

end TryMethod

namespace Node

variable {m n : Node} {fs : List Finding} {offset : UInt32} {k : Nat}

/-- A fix adds at most eight levels. -/
theorem deeperBy_of_fixed? (h : n.fixed? = some m) : DeeperBy 8 n.toJson m.toJson := by
  obtain ⟨r, hr, -, hm⟩ := fixed?_eq_some.1 h
  rcases Registry.mem_builtin.1 hr with rfl | rfl
  · exact ValueEquality.deeperBy_of_synthesize hm
  · exact TryMethod.deeperBy_of_synthesize hm

-- The fix of a method without statements adds all eight.
example :
    let method : Node := ⟨⟨0, 15⟩, .methodDecl [] ⟨⟨0, 3⟩, .typeRef (.predefined .int)⟩ "TryGet" []
      ⟨⟨13, 15⟩, .block []⟩⟩
    method.fixed?.map (fun m => m.toJson.depth) = some (method.toJson.depth + 8) := by
  decide +kernel

theorem deeperBy_fixAt (fs : List Finding) (n : Node) :
    DeeperBy 8 n.toJson (n.fixAt fs).toJson := by
  rw [fixAt]
  split
  · cases hm : n.fixed? with
    | none => exact Json.deeperBy_refl _
    | some m => exact deeperBy_of_fixed? hm
  · exact Json.deeperBy_refl _

/-- The findings among some that a node of the tree stands for. -/
def chosenFindings (fs : List Finding) (n : Node) : List Finding :=
  n.preorder.filterMap fun m => m.finding?.filter fun f => decide (f ∈ fs)

theorem chosenFindings_eq (fs : List Finding) (n : Node) : n.chosenFindings fs =
    (n.finding?.filter fun f => decide (f ∈ fs)).toList ++ n.children.flatMap (chosenFindings fs) :=
  filterMap_preorder _ n

theorem depthAt_chosenFindings_le (fs : List Finding) (hn : n.StrictlyNested) (offset : UInt32) :
    depthAt (n.chosenFindings fs) offset ≤ depthAt fs offset := by
  have hnodup : (n.chosenFindings fs).Nodup := by
    apply hn.nodup_filterMap
    intro m f hf
    exact (Option.filter_eq_some_iff.1 hf).1
  have hsub : n.chosenFindings fs ⊆ fs := by
    intro f hf
    obtain ⟨m, -, hf⟩ := List.mem_filterMap.1 hf
    simpa using (Option.filter_eq_some_iff.1 hf).2
  exact (List.subperm_of_subset hnodup hsub).countP_le _

theorem depthAt_chosenFindings_eq_zero (hn : n.StrictlyNested) (h : ¬ n.span.covers offset) :
    depthAt (n.chosenFindings fs) offset = 0 := by
  apply List.countP_eq_zero.2
  intro f hf hoffset
  obtain ⟨m, hm, hf⟩ := List.mem_filterMap.1 hf
  rw [span_eq_of_finding? (Option.filter_eq_some_iff.1 hf).1] at hoffset
  exact h (Span.covers_of_contains (hn.contained.within hm) hoffset)

theorem depthAt_chosenFindings_child_le {c : Node} (fs : List Finding) (hc : c ∈ n.children)
    (offset : UInt32) : depthAt (c.chosenFindings fs) offset ≤
      depthAt (n.children.flatMap (chosenFindings fs)) offset := by
  have hsub : (c.chosenFindings fs).Sublist (n.children.flatMap (chosenFindings fs)) :=
    List.sublist_flatten_of_mem (List.mem_map_of_mem hc)
  exact hsub.countP_le

theorem depthAt_chosenFindings_of_chosen (h : n.Chosen fs) (hoffset : n.span.covers offset) :
    depthAt (n.chosenFindings fs) offset =
      depthAt (n.children.flatMap (chosenFindings fs)) offset + 1 := by
  obtain ⟨f, hf, hnf⟩ := h
  have hself : (n.finding?.filter fun f => decide (f ∈ fs)) = some f := by simp [hnf, hf]
  rw [chosenFindings_eq, hself, Option.toList_some, List.singleton_append]
  apply List.countP_cons_of_pos
  rwa [span_eq_of_finding? hnf]

/-- Fixing adds at most eight levels for each of the chosen findings around one offset. -/
theorem deeperBy_fixing (hn : n.StrictlyNested)
    (hk : ∀ offset, depthAt (n.chosenFindings fs) offset ≤ k) :
    DeeperBy (8 * k) n.toJson (n.fixing fs).toJson := by
  induction n using induction_children generalizing k with
  | h n ih =>
    by_cases hchosen : n.Chosen fs
    · have hcovered (offset : UInt32) (hoffset : n.span.covers offset) :
          depthAt (n.children.flatMap (chosenFindings fs)) offset < k := by
        have hself := hk offset
        rwa [depthAt_chosenFindings_of_chosen hchosen hoffset] at hself
      have hpos := hcovered _ (Span.covers_start hn.self.nonempty)
      -- Where there is a finding below, that of the node itself counts as well.
      have hbelow (c : Node) (hc : c ∈ n.children) (offset : UInt32) :
          depthAt (c.chosenFindings fs) offset ≤ k - 1 := by
        by_cases hoffset : n.span.covers offset
        · have hchild := depthAt_chosenFindings_child_le fs hc offset
          have hless := hcovered offset hoffset
          omega
        · have houtside : ¬ c.span.covers offset := by
            intro hin
            exact hoffset (Span.covers_of_contains (hn.self.within c hc) hin)
          rw [depthAt_chosenFindings_eq_zero (hn.child hc) houtside]
          exact Nat.zero_le _
      have hchildren : DeeperBy (8 * (k - 1)) n.toJson (n.mapChildren (fixing fs)).toJson :=
        deeperBy_mapChildren fun c hc => ih c hc (hn.child hc) (hbelow c hc)
      have hfix := deeperBy_fixAt fs (n.mapChildren (fixing fs))
      rw [DeeperBy] at *
      rw [fixing_eq]
      omega
    · rw [fixing_of_not_chosen hchosen]
      apply deeperBy_mapChildren
      intro c hc
      apply ih c hc (hn.child hc)
      intro offset
      have hself := hk offset
      rw [chosenFindings_eq, depthAt_append] at hself
      have hchild := depthAt_chosenFindings_child_le fs hc offset
      omega

end Node

namespace Registry

variable {registry : Registry} {types : TypeTable} {start tree : Node} {applied : List Finding}
  {failed : List (Finding × RuleError)} {k : Nat}

/-- However far fixing has come, it has added at most eight levels for each finding around one
offset. -/
theorem Progress.depth_le (h : registry.Progress types start tree applied failed)
    (hregistry : registry.IsBuiltin) (hstart : start.StrictlyNested)
    (hk : ∀ offset, depthAt (registry.report types.oracle start) offset ≤ k) :
    tree.toJson.depth ≤ start.toJson.depth + 8 * k := by
  rw [h.tree_eq]
  apply Node.deeperBy_fixing hstart
  intro offset
  have happlied := Node.depthAt_chosenFindings_le applied hstart offset
  have hreport := depthAt_perm (h.perm hregistry hstart) offset
  rw [depthAt_append, depthAt_append] at hreport
  have hmost := hk offset
  omega

end Registry

end TreeLint
