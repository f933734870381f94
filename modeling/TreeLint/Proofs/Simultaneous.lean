import TreeLint.Proofs.NestedReplacement
import TreeLint.Proofs.Passes

namespace TreeLint

namespace Node

variable {m n : Node} {fs gs : List Finding} {f : Finding}

/-- The node stands for one of the findings. -/
def Chosen (fs : List Finding) (n : Node) : Prop := ∃ f ∈ fs, n.finding? = some f

instance : DecidablePred (Chosen fs) := fun n =>
  inferInstanceAs (Decidable (∃ f ∈ fs, n.finding? = some f))

/-- The fix of a chosen node, if it has one, and otherwise the node itself. -/
def fixAt (fs : List Finding) (n : Node) : Node := if n.Chosen fs then n.fixed?.getD n else n

/-- The tree with all chosen nodes fixed, the inner ones before the outer ones. -/
def fixing (fs : List Finding) (n : Node) : Node :=
  n.fold fun span shape => fixAt fs ⟨span, shape⟩

theorem fixing_eq (fs : List Finding) (n : Node) :
    n.fixing fs = fixAt fs (n.mapChildren (fixing fs)) := by
  rw [fixing, fold_eq]
  rfl

theorem chosen_mapChildren {g : Node → Node} : (n.mapChildren g).Chosen fs ↔ n.Chosen fs := by
  rw [Chosen, Chosen, finding?_congr (kind_mapChildren g n) (span_mapChildren g n)]

theorem chosen_iff (h : n.finding? = some f) : n.Chosen fs ↔ f ∈ fs := by
  constructor
  · intro hc
    obtain ⟨g, hg, hng⟩ := hc
    cases h.symm.trans hng
    exact hg
  · intro hf
    exact ⟨f, hf, h⟩

@[simp]
theorem chosen_singleton : n.Chosen [f] ↔ n.finding? = some f := by
  simp only [Chosen, List.mem_singleton, exists_eq_left]

@[simp]
theorem not_chosen_nil : ¬ n.Chosen [] := by
  simp only [Chosen, List.not_mem_nil, false_and, exists_false, not_false_eq_true]

theorem chosen_append : n.Chosen (fs ++ gs) ↔ n.Chosen fs ∨ n.Chosen gs := by
  simp only [Chosen, List.mem_append, or_and_right, exists_or]

theorem not_chosen (h : ¬ n.isSite) : ¬ n.Chosen fs := by
  intro hc
  obtain ⟨f, -, hf⟩ := hc
  rw [finding?_eq_none h] at hf
  cases hf

theorem fixAt_congr (h : n.Chosen fs ↔ n.Chosen gs) : n.fixAt fs = n.fixAt gs := by
  rw [fixAt, fixAt, if_congr h rfl rfl]

theorem fixAt_keeps (fs : List Finding) (n : Node) :
    (n.fixAt fs).span = n.span ∧ (n.fixAt fs).category = n.category ∧
      ((n.fixAt fs).isSite → (n.fixAt fs).kind = n.kind) := by
  rw [fixAt]
  split
  · cases hm : n.fixed? with
    | none => exact ⟨rfl, rfl, fun _ => rfl⟩
    | some m => exact of_fixed?_eq_some hm
  · exact ⟨rfl, rfl, fun _ => rfl⟩

theorem fixing_of_not_chosen (h : ¬ n.Chosen fs) : n.fixing fs = n.mapChildren (fixing fs) := by
  rw [fixing_eq, fixAt, if_neg fun hc => h (chosen_mapChildren.1 hc)]

theorem isPass_fixing (fs : List Finding) : IsPass (fixing fs) := by
  refine ⟨fun n => ?_, fun n => ?_, fun n hn => fixing_of_not_chosen (not_chosen hn)⟩
  · rw [fixing_eq]
    exact (fixAt_keeps fs _).1
  · rw [fixing_eq, (fixAt_keeps fs _).2.1, category, kind_mapChildren]
    rfl

theorem finding?_fixing (h : (n.fixing fs).isSite) : (n.fixing fs).finding? = n.finding? := by
  refine finding?_congr ?_ ((isPass_fixing fs).span n)
  rw [fixing_eq] at h ⊢
  rw [(fixAt_keeps fs _).2.2 h, kind_mapChildren]

theorem fixing_of_fixed? (hn : n.StrictlyNested) (h : n.Chosen fs) (hm : n.fixed? = some m) :
    n.fixing fs = m.mapChildren (fixing fs) := by
  rw [fixing_eq, fixAt, if_pos (chosen_mapChildren.2 h),
    fixed?_mapChildren (isPass_fixing fs) hn, hm, Option.map_some, Option.getD_some]

theorem fixing_of_fixed?_eq_none (hn : n.StrictlyNested) (hm : n.fixed? = none) :
    n.fixing fs = n.mapChildren (fixing fs) := by
  rw [fixing_eq, fixAt]
  split
  · rw [fixed?_mapChildren (isPass_fixing fs) hn, hm, Option.map_none, Option.getD_none]
  · rfl

/-- Passes that agree below a node agree below its fix. -/
theorem mapChildren_congr_of_fixed? {g h : Node → Node} (hg : IsPass g) (hh : IsPass h)
    (hn : n.StrictlyNested) (hm : n.fixed? = some m) (hgh : ∀ c ∈ n.children, g c = h c) :
    m.mapChildren g = m.mapChildren h := by
  have hfixed := fixed?_mapChildren hg hn
  rw [mapChildren_congr hgh, fixed?_mapChildren hh hn, hm] at hfixed
  exact (Option.some.inj hfixed).symm

theorem fixing_congr (hn : n.StrictlyNested)
    (h : ∀ m ∈ n.preorder, m.fixed? ≠ none → (m.Chosen fs ↔ m.Chosen gs)) :
    n.fixing fs = n.fixing gs := by
  induction n using induction_children with
  | h n ih =>
    have hbelow (c : Node) (hc : c ∈ n.children) : c.fixing fs = c.fixing gs :=
      ih c hc (hn.child hc) fun m hm => h m (mem_preorder_of_child hc hm)
    cases hm : n.fixed? with
    | none =>
      rw [fixing_of_fixed?_eq_none hn hm, fixing_of_fixed?_eq_none hn hm]
      exact mapChildren_congr hbelow
    | some m =>
      have hself := h n n.self_mem_preorder (by simp [hm])
      by_cases hc : n.Chosen fs
      · rw [fixing_of_fixed? hn hc hm, fixing_of_fixed? hn (hself.1 hc) hm]
        exact mapChildren_congr_of_fixed? (isPass_fixing fs) (isPass_fixing gs) hn hm hbelow
      · rw [fixing_of_not_chosen hc, fixing_of_not_chosen fun hc' => hc (hself.2 hc')]
        exact mapChildren_congr hbelow

/-- Every chosen node has a fix. -/
def Fixable (fs : List Finding) (n : Node) : Prop :=
  n.Everywhere fun m => m.Chosen fs → m.fixed? ≠ none

/-- No chosen node has a fix. -/
def Unfixable (fs : List Finding) (n : Node) : Prop :=
  n.Everywhere fun m => m.Chosen fs → m.fixed? = none

theorem Fixable.append (hf : n.Fixable fs) (hg : n.Fixable gs) : n.Fixable (fs ++ gs) := by
  intro m hm hc
  rcases chosen_append.1 hc with hc | hc
  · exact hf m hm hc
  · exact hg m hm hc

theorem Unfixable.append (hf : n.Unfixable fs) (hg : n.Unfixable gs) : n.Unfixable (fs ++ gs) := by
  intro m hm hc
  rcases chosen_append.1 hc with hc | hc
  · exact hf m hm hc
  · exact hg m hm hc

theorem fixable_nil : n.Fixable [] := by
  intro m _ hc
  exact absurd hc not_chosen_nil

theorem unfixable_nil : n.Unfixable [] := by
  intro m _ hc
  exact absurd hc not_chosen_nil

/-- Findings without a fix may be chosen or not. -/
theorem fixing_append_of_unfixable (hn : n.StrictlyNested) (hg : n.Unfixable gs) :
    n.fixing (fs ++ gs) = n.fixing fs := by
  apply fixing_congr hn
  intro m hm hfixed
  rw [chosen_append, or_iff_left]
  intro hc
  exact hfixed (hg m hm hc)

theorem fixing_eq_of_mem_iff (hn : n.StrictlyNested) (h : ∀ f, f ∈ fs ↔ f ∈ gs) :
    n.fixing fs = n.fixing gs := by
  apply fixing_congr hn
  intro m _ _
  simp only [Chosen, h]

theorem fixing_eq_self (h : n.Everywhere fun m => ¬ m.Chosen fs) : n.fixing fs = n := by
  induction n using induction_children with
  | h n ih =>
    rw [fixing_of_not_chosen h.self]
    exact mapChildren_eq_self fun c hc => ih c hc (h.child hc)

/-- Fixing some findings and then others is fixing all of them. -/
theorem fixing_fixing (hn : n.StrictlyNested) (h : fs.Disjoint gs) :
    (n.fixing gs).fixing fs = n.fixing (fs ++ gs) := by
  induction n using induction_children with
  | h n ih =>
    have hbelow (c : Node) (hc : c ∈ n.children) :
        (fixing fs ∘ fixing gs) c = c.fixing (fs ++ gs) :=
      ih c hc (hn.child hc)
    by_cases hgs : n.Chosen gs
    · have hfs : ¬ n.Chosen fs := by
        intro hc
        obtain ⟨f, hf, hnf⟩ := hgs
        exact h ((chosen_iff hnf).1 hc) hf
      have hboth : n.Chosen (fs ++ gs) := chosen_append.2 (.inr hgs)
      cases hm : n.fixed? with
      | none =>
        rw [fixing_of_fixed?_eq_none hn hm, fixing_of_fixed?_eq_none hn hm,
          fixing_of_not_chosen fun hc => hfs (chosen_mapChildren.1 hc), mapChildren_mapChildren]
        exact mapChildren_congr hbelow
      | some m =>
        -- What the fix leaves in place of the node is not chosen in turn.
        have hm' : ¬ m.Chosen fs := by
          obtain ⟨hspan, -, hkind⟩ := of_fixed?_eq_some hm
          intro hc
          by_cases hsite : m.isSite
          · rw [Chosen, finding?_congr (hkind hsite) hspan] at hc
            exact hfs hc
          · exact not_chosen hsite hc
        rw [fixing_of_fixed? hn hgs hm, fixing_of_fixed? hn hboth hm,
          fixing_of_not_chosen fun hc => hm' (chosen_mapChildren.1 hc), mapChildren_mapChildren]
        exact mapChildren_congr_of_fixed? ((isPass_fixing fs).comp (isPass_fixing gs))
          (isPass_fixing (fs ++ gs)) hn hm hbelow
    · have hchosen : n.Chosen fs ↔ n.Chosen (fs ++ gs) := by
        rw [chosen_append, or_iff_left hgs]
      rw [fixing_of_not_chosen hgs, fixing_eq fs, mapChildren_mapChildren,
        mapChildren_congr hbelow, fixing_eq (fs ++ gs)]
      exact fixAt_congr (by rwa [chosen_mapChildren, chosen_mapChildren])

theorem SpansNest.fixAt (hn : n.SpansNest) : (n.fixAt fs).SpansNest := by
  rw [Node.fixAt]
  split
  · cases hm : n.fixed? with
    | none => exact hn
    | some m =>
      obtain ⟨r, hr, -, hm⟩ := fixed?_eq_some.1 hm
      exact (Registry.keepsNesting_of_mem_builtin hr hn hm).1
  · exact hn

theorem SpansNest.fixing (hn : n.SpansNest) : (n.fixing fs).SpansNest := by
  induction n using induction_children with
  | h n ih =>
    rw [fixing_eq]
    refine SpansNest.fixAt (spansNest_iff.2 ⟨?_, fun c hc => ?_⟩)
    · have hspans : (n.children.map (Node.fixing fs)).map Node.span = n.children.map Node.span := by
        rw [List.map_map]
        exact List.map_congr_left fun c _ => (isPass_fixing fs).span c
      rw [children_mapChildren, span_mapChildren, hspans]
      exact (spansNest_iff.1 hn).1
    · rw [children_mapChildren] at hc
      obtain ⟨d, hd, rfl⟩ := List.mem_map.1 hc
      exact ih d hd (hn.child hd)

end Node

end TreeLint
