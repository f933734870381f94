import TreeLint.Proofs.Reports

namespace TreeLint

theorem of_flatMap_eq_singleton {α β : Type} {xs : List α} {g : α → List β} {b : β}
    (h : xs.flatMap g = [b]) :
    ∃ as a bs, xs = as ++ a :: bs ∧ g a = [b] ∧ ∀ x ∈ as ++ bs, g x = [] := by
  induction xs with
  | nil => cases h
  | cons x xs ih =>
    rw [List.flatMap_cons, List.append_eq_singleton_iff] at h
    rcases h with ⟨hx, hxs⟩ | ⟨hx, hxs⟩
    · obtain ⟨as, a, bs, rfl, ha, hempty⟩ := ih hxs
      refine ⟨x :: as, a, bs, rfl, ha, fun y hy => ?_⟩
      rcases List.mem_cons.1 hy with rfl | hy
      · exact hx
      · exact hempty y hy
    · exact ⟨[], x, xs, rfl, hx, List.flatMap_eq_nil_iff.1 hxs⟩

namespace Node

variable {n x target new : Node} {f : Finding} {gs : List Finding}

theorem nodesFor_eq (f : Finding) (n : Node) : n.nodesFor f =
    (if n.finding? = some f then [n] else []) ++ n.children.flatMap (nodesFor f) := by
  rw [nodesFor, filterMap_preorder]
  congr 1
  by_cases h : n.finding? = some f <;> simp [Option.guard, h]

theorem not_chosen_of_nodesFor (h : n.nodesFor f = []) :
    n.Everywhere fun m => ¬ m.Chosen [f] := by
  intro m hm hc
  have hmem : m ∈ n.nodesFor f := mem_nodesFor.2 ⟨hm, chosen_singleton.1 hc⟩
  rw [h] at hmem
  cases hmem

theorem fixing_of_nodesFor_below (hf : n.finding? = some f)
    (hbelow : n.children.flatMap (nodesFor f) = []) (hnew : n.fixed? = some new) :
    n.fixing [f] = new := by
  have hself : n.mapChildren (fixing [f]) = n := by
    apply mapChildren_eq_self
    intro c hc
    exact fixing_eq_self (not_chosen_of_nodesFor (List.flatMap_eq_nil_iff.1 hbelow c hc))
  rw [fixing_eq, hself, fixAt, if_pos (chosen_singleton.2 hf), hnew, Option.getD_some]

/-- The search for the only node of a finding ends at that node, and putting the fix there fixes the
finding. -/
theorem exists_pathTo?_fixing (hcontained : n.Contained) (h : n.nodesFor f = [target])
    (hnew : target.fixed? = some new) :
    ∃ p, pathTo? target n = some p ∧ n.replace? p new = some (n.fixing [f]) := by
  induction n using induction_children with
  | h n ih =>
    rw [nodesFor_eq, List.append_eq_singleton_iff] at h
    split at h
    · rename_i hf
      rcases h with ⟨hnil, -⟩ | ⟨hn, hbelow⟩
      · cases hnil
      · cases hn
        rw [fixing_of_nodesFor_below hf hbelow hnew]
        exact ⟨[], by rw [pathTo?_eq, if_pos rfl], rfl⟩
    · -- The only node of the finding lies below one child, and the others are left as they are.
      rename_i hf
      rcases h with ⟨-, hbelow⟩ | ⟨hnil, -⟩
      · obtain ⟨as, c, bs, hchildren, hc, hempty⟩ := of_flatMap_eq_singleton hbelow
        have hmem : c ∈ n.children := by simp [hchildren]
        have htarget : target ∈ c.preorder ∧ target.finding? = some f := by
          rw [← mem_nodesFor, hc]
          exact List.mem_singleton_self target
        obtain ⟨p, hp, hreplace⟩ := ih c hmem (hcontained.child hmem) hc
        have hn : ¬ n.Chosen [f] := by
          rwa [chosen_singleton]
        -- The path to the node enters that child, since it finds nothing in those before.
        refine ⟨as.length :: p, pathTo?_of_child ?_ hchildren (fun a ha _ => ?_)
          ((hcontained.child hmem).within htarget.1) hp, ?_⟩
        · intro he
          rw [he] at hf
          exact hf htarget.2
        · apply pathTo?_eq_none
          intro ha'
          have hmem' := mem_nodesFor.2 ⟨ha', htarget.2⟩
          rw [hempty a (List.mem_append_left bs ha)] at hmem'
          cases hmem'
        · rw [fixing_of_not_chosen hn, replace?_cons, hchildren]
          simp only [Nat.le_refl, List.getElem?_append_right, Nat.sub_self,
            List.getElem?_cons_zero, Option.bind_some, hreplace]
          exact withChild?_eq_mapChildren hchildren fun d hd =>
            fixing_eq_self (not_chosen_of_nodesFor (hempty d hd))
      · cases hnil

theorem substitute_eq_fixing (hcontained : n.Contained) (h : n.nodesFor f = [target])
    (hnew : target.fixed? = some new) : n.substitute target new = .ok (n.fixing [f]) := by
  obtain ⟨p, hp, hreplace⟩ := exists_pathTo?_fixing hcontained h hnew
  exact substitute_of_pathTo? (of_fixed?_eq_some hnew).2.1.symm hp hreplace

theorem kind_eq_of_finding? {y : Node} (hx : x.finding? = some f) (hy : y.finding? = some f) :
    x.kind = y.kind := by
  obtain ⟨r, hr, hrk, hrf⟩ := finding?_eq_some.1 hx
  obtain ⟨s, hs, hsk, hsf⟩ := finding?_eq_some.1 hy
  have hid : r.id = s.id := congrArg Finding.ruleId (hrf.trans hsf.symm)
  rw [← hrk, ← hsk, Registry.eq_of_id_eq hr hs hid]

theorem finding?_beq (hx : x.finding? = some f) (y : Node) :
    (y.span == f.span && y.kind == x.kind) = (y.finding? == some f) := by
  rw [Bool.eq_iff_iff, Bool.and_eq_true, beq_iff_eq, beq_iff_eq, beq_iff_eq]
  constructor
  · rintro ⟨hspan, hkind⟩
    rw [← hx]
    exact finding?_congr hkind (hspan.trans (span_eq_of_finding? hx))
  · intro hy
    exact ⟨(span_eq_of_finding? hy).symm, kind_eq_of_finding? hy hx⟩

theorem nodesFor_fixing_eq (hn : n.StrictlyNested) (hx : x ∈ n.preorder)
    (hf : x.finding? = some f) (hgs : f ∉ gs) :
    (n.fixing gs).nodesFor f = [x.mapChildren (fixing gs)] := by
  rw [nodesFor_fixing hn hgs, hn.nodesFor_eq hx hf]
  rfl

theorem findSpan?_fixing (hn : n.StrictlyNested) (hx : x ∈ n.preorder)
    (hf : x.finding? = some f) (hgs : f ∉ gs) :
    (n.fixing gs).findSpan? f.span x.kind = some (x.mapChildren (fixing gs)) := by
  have hnodes := nodesFor_fixing_eq hn hx hf hgs
  rw [nodesFor, List.filterMap_eq_filter] at hnodes
  rw [hn.spansNest.fixing.contained.findSpan?_eq, funext (finding?_beq hf), ← List.head?_filter,
    hnodes]
  rfl

end Node

namespace Registry

variable {registry : Registry} {n x m : Node} {f : Finding} {r : Rule} {gs : List Finding}

theorem StandsFor.resolves (h : registry.StandsFor n f r x) (hn : n.StrictlyNested)
    (hgs : f ∉ gs) : registry.Resolves (n.fixing gs) f r (x.mapChildren (Node.fixing gs)) := by
  refine ⟨h.rule, ?_⟩
  rw [(Kind.rule?_eq_some.1 h.looks).2]
  exact Node.findSpan?_fixing hn h.mem h.finding hgs

theorem StandsFor.eq_of_finding? (h : registry.StandsFor n f r x) (hn : n.StrictlyNested)
    (hm : m ∈ n.preorder) (hf : m.finding? = some f) : m = x := by
  have hnodes := Node.mem_nodesFor.2 ⟨hm, hf⟩
  rwa [hn.nodesFor_eq h.mem h.finding, List.mem_singleton] at hnodes

theorem StandsFor.synthesize_eq_ok {y : Node} (h : registry.StandsFor n f r x)
    (hy : y.kind = x.kind) : r.synthesize y = .ok m ↔ y.fixed? = some m := by
  rw [Node.fixed?, hy, h.looks, Option.bind_some]
  cases r.synthesize y with
  | error e => simp [Except.toOption]
  | ok m => simp [Except.toOption]

theorem StandsFor.substitute (h : registry.StandsFor n f r x) (hn : n.StrictlyNested)
    (hgs : f ∉ gs) (hm : x.fixed? = some m) :
    (n.fixing gs).substitute (x.mapChildren (Node.fixing gs)) (m.mapChildren (Node.fixing gs)) =
      .ok (n.fixing (f :: gs)) := by
  have hfixed : (x.mapChildren (Node.fixing gs)).fixed? = some (m.mapChildren (Node.fixing gs)) := by
    rw [Node.fixed?_mapChildren (Node.isPass_fixing gs) (hn.below h.mem), hm, Option.map_some]
  rw [Node.substitute_eq_fixing hn.spansNest.fixing.contained
    (Node.nodesFor_fixing_eq hn h.mem h.finding hgs) hfixed, Node.fixing_fixing hn]
  · rfl
  · simpa using hgs

/-- After other findings are fixed, a finding whose node has a fix is fixed on top of them. -/
theorem StandsFor.applyFix_of_fixed? (h : registry.StandsFor n f r x) (hn : n.StrictlyNested)
    (hgs : f ∉ gs) (hx : x.fixed? ≠ none) :
    registry.applyFix (n.fixing gs) f = .ok (n.fixing (f :: gs)) := by
  obtain ⟨m, hm⟩ := Option.ne_none_iff_exists'.1 hx
  refine applyFix_eq_ok.2 ⟨r, _, _, h.resolves hn hgs,
    (h.synthesize_eq_ok (Node.kind_mapChildren _ x)).2 ?_, h.substitute hn hgs hm⟩
  rw [Node.fixed?_mapChildren (Node.isPass_fixing gs) (hn.below h.mem), hm, Option.map_some]

theorem StandsFor.applyFix_of_fixed?_eq_none (h : registry.StandsFor n f r x)
    (hn : n.StrictlyNested) (hgs : f ∉ gs) (hx : x.fixed? = none) :
    ∃ e, registry.applyFix (n.fixing gs) f = .error (.rule e) := by
  have hfixed : (x.mapChildren (Node.fixing gs)).fixed? = none := by
    rw [Node.fixed?_mapChildren (Node.isPass_fixing gs) (hn.below h.mem), hx, Option.map_none]
  cases hs : r.synthesize (x.mapChildren (Node.fixing gs)) with
  | error e =>
    refine ⟨e, ?_⟩
    rw [(h.resolves hn hgs).applyFix, hs]
    rfl
  | ok m =>
    rw [h.synthesize_eq_ok (Node.kind_mapChildren _ x), hfixed] at hs
    cases hs

/-- A tree reached from another one by fixing findings one after another, each of them reported,
with whichever type facts, in the tree that it is fixed in. -/
inductive FixedFrom (registry : Registry) (start : Node) : Node → Prop where
  | refl : FixedFrom registry start start
  | step {tree next : Node} {types : TypeTable} {f : Finding}
      (h : FixedFrom registry start tree) (hf : f ∈ registry.report types.oracle tree)
      (hfix : registry.applyFix tree f = .ok next) : FixedFrom registry start next

/-- A fix of a reported finding, in a tree in which others are fixed, fixes one finding more. -/
theorem IsBuiltin.applyFix_fixing (h : registry.IsBuiltin) (hn : n.StrictlyNested)
    (hgs : n.Fixable gs) {types : TypeTable} {t : Node}
    (hf : f ∈ registry.report types.oracle (n.fixing gs))
    (hfix : registry.applyFix (n.fixing gs) f = .ok t) :
    t = n.fixing (f :: gs) ∧ n.Fixable (f :: gs) := by
  rw [h.report_fixing hn hgs, List.mem_filter, decide_eq_true_eq] at hf
  obtain ⟨hf, hleft⟩ := hf
  obtain ⟨r, x, hx⟩ := h.exists_standsFor hf
  have hfixed : x.fixed? ≠ none := by
    intro hnone
    obtain ⟨e, he⟩ := hx.applyFix_of_fixed?_eq_none hn hleft hnone
    rw [he] at hfix
    cases hfix
  rw [hx.applyFix_of_fixed? hn hleft hfixed] at hfix
  refine ⟨(Except.ok.inj hfix).symm, ?_⟩
  intro m hm hc
  obtain ⟨g, hg, hmg⟩ := hc
  rcases List.mem_cons.1 hg with rfl | hg
  · rwa [hx.eq_of_finding? hn hm hmg]
  · exact hgs m hm ⟨g, hg, hmg⟩

theorem FixedFrom.exists_fixing {t : Node} (ht : registry.FixedFrom n t) (h : registry.IsBuiltin)
    (hn : n.StrictlyNested) :
    ∃ gs, t = n.fixing gs ∧ n.Fixable gs := by
  induction ht with
  | refl =>
    exact ⟨[], (Node.fixing_eq_self fun _ _ => Node.not_chosen_nil).symm, Node.fixable_nil⟩
  | step _ hf hfix ih =>
    obtain ⟨gs, rfl, hgs⟩ := ih
    exact ⟨_, h.applyFix_fixing hn hgs hf hfix⟩

/-- A single fix takes its own finding from the report and leaves all others in their order. -/
theorem report_applyFix {start t next : Node} {types : TypeTable} {i : Nat}
    (h : registry.IsBuiltin) (hstart : start.StrictlyNested) (ht : registry.FixedFrom start t)
    (hf : (registry.report types.oracle t)[i]? = some f)
    (hfix : registry.applyFix t f = .ok next) :
    registry.report types.oracle next = (registry.report types.oracle t).eraseIdx i := by
  obtain ⟨gs, rfl, hgs⟩ := ht.exists_fixing h hstart
  obtain ⟨rfl, hgs'⟩ := h.applyFix_fixing hstart hgs (List.mem_of_getElem? hf) hfix
  have hnodup : (registry.report types.oracle (start.fixing gs)).Nodup := by
    rw [h.report_fixing hstart hgs]
    exact (h.nodup_report hstart).filter _
  obtain ⟨hi, hfi⟩ := List.getElem?_eq_some_iff.1 hf
  rw [← hnodup.erase_getElem i hi, hfi, hnodup.erase_eq_filter, h.report_fixing hstart hgs,
    h.report_fixing hstart hgs', List.filter_filter]
  apply List.filter_congr
  intro g _
  rw [Bool.eq_iff_iff]
  simp

/-- The method `int TryGet() { if (a == b) { return c == d; } return e == f; }`. -/
def tryChoose : Node :=
  ⟨⟨0, 62⟩, .methodDecl [] ⟨⟨0, 3⟩, .typeRef (.predefined .int)⟩ "TryGet" []
    ⟨⟨13, 62⟩, .block [
      ⟨⟨15, 45⟩, .ifStmt
        ⟨⟨19, 25⟩, .binary .equals ⟨⟨19, 20⟩, .identifier "a"⟩ ⟨⟨24, 25⟩, .identifier "b"⟩⟩
        ⟨⟨27, 45⟩, .block [⟨⟨29, 43⟩, .returnStmt (some ⟨⟨36, 42⟩, .binary .equals
          ⟨⟨36, 37⟩, .identifier "c"⟩ ⟨⟨41, 42⟩, .identifier "d"⟩⟩)⟩]⟩
        none⟩,
      ⟨⟨46, 60⟩, .returnStmt (some ⟨⟨53, 59⟩, .binary .equals
        ⟨⟨53, 54⟩, .identifier "e"⟩ ⟨⟨58, 59⟩, .identifier "f"⟩⟩)⟩]⟩⟩

/-- Once `tryChoose` has an out-parameter, three comparisons are reported in it. Fixing the second
of them leaves the first and the third. -/
theorem report_applyFix_tryChoose :
    let types := TypeTable.ofEntries
      ([⟨19, 20⟩, ⟨24, 25⟩, ⟨36, 37⟩, ⟨41, 42⟩, ⟨53, 54⟩, ⟨58, 59⟩].map (⟨·, .known true⟩))
    let method := TryMethod.rule.findingAt ⟨0, 62⟩
    let comparison := ValueEquality.rule.findingAt
    ∃ tree next, builtin.applyFix tryChoose method = .ok tree ∧
      builtin.report types.oracle tree =
        [comparison ⟨19, 25⟩, comparison ⟨36, 42⟩, comparison ⟨53, 59⟩] ∧
      builtin.applyFix tree (comparison ⟨36, 42⟩) = .ok next ∧
      builtin.report types.oracle next = [comparison ⟨19, 25⟩, comparison ⟨53, 59⟩] := by
  intro types method comparison
  have hmethod : method ∈ builtin.report types.oracle tryChoose := by
    decide +kernel
  have htree : builtin.applyFix tryChoose method = .ok (tryChoose.fixing [method]) := by
    decide +kernel
  have hthree : builtin.report types.oracle (tryChoose.fixing [method]) =
      [comparison ⟨19, 25⟩, comparison ⟨36, 42⟩, comparison ⟨53, 59⟩] := by
    decide +kernel
  have hnext : builtin.applyFix (tryChoose.fixing [method]) (comparison ⟨36, 42⟩) =
      .ok (tryChoose.fixing [comparison ⟨36, 42⟩, method]) := by
    decide +kernel
  have hsecond : (builtin.report types.oracle (tryChoose.fixing [method]))[1]? =
      some (comparison ⟨36, 42⟩) := by
    rw [hthree]
    rfl
  refine ⟨_, _, htree, hthree, hnext, ?_⟩
  rw [report_applyFix isBuiltin_builtin (by decide +kernel) (.step .refl hmethod htree) hsecond
    hnext, hthree]
  rfl

end Registry

end TreeLint
