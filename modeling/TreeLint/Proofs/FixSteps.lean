import Mathlib.Data.List.Chain
import Mathlib.Data.List.Forall2
import Mathlib.Data.List.Perm.Basic
import TreeLint.Fixing

namespace TreeLint

section Results

variable {ε δ α β : Type}

theorem bind_eq_ok {x : Except ε α} {f : α → Except ε β} {b : β} :
    (x >>= f) = .ok b ↔ ∃ a, x = .ok a ∧ f a = .ok b := by
  cases x with
  | error e => simp [bind, Except.bind]
  | ok a => simp [bind, Except.bind]

theorem bind_eq_error {x : Except ε α} {f : α → Except ε β} {e : ε} :
    (x >>= f) = .error e ↔ x = .error e ∨ ∃ a, x = .ok a ∧ f a = .error e := by
  cases x with
  | error e' => simp [bind, Except.bind]
  | ok a => simp [bind, Except.bind]

theorem mapError_eq_ok {x : Except ε α} {f : ε → δ} {a : α} :
    x.mapError f = .ok a ↔ x = .ok a := by
  cases x with
  | error e => simp [Except.mapError]
  | ok b => simp [Except.mapError]

theorem mapError_eq_error {x : Except ε α} {f : ε → δ} {d : δ} :
    x.mapError f = .error d ↔ ∃ e, x = .error e ∧ f e = d := by
  cases x with
  | error e => simp [Except.mapError]
  | ok a => simp [Except.mapError]

theorem mapM_eq_ok {f : α → Except ε β} {xs : List α} {ys : List β} :
    xs.mapM f = .ok ys ↔ List.Forall₂ (fun x y => f x = .ok y) xs ys := by
  induction xs generalizing ys with
  | nil =>
    rw [List.mapM_nil, List.forall₂_nil_left_iff]
    exact ⟨fun h => (Except.ok.inj h).symm, fun h => h ▸ rfl⟩
  | cons x xs ih =>
    rw [List.mapM_cons, bind_eq_ok, List.forall₂_cons_left_iff]
    apply exists_congr
    intro y
    rw [bind_eq_ok]
    constructor
    · rintro ⟨hy, zs, hzs, h⟩
      exact ⟨zs, hy, ih.1 hzs, (Except.ok.inj h).symm⟩
    · rintro ⟨zs, hy, hzs, rfl⟩
      exact ⟨hy, zs, ih.2 hzs, rfl⟩

theorem exists_forall₂_iff {R : α → β → Prop} {xs : List α} :
    (∃ ys, List.Forall₂ R xs ys) ↔ ∀ x ∈ xs, ∃ y, R x y := by
  induction xs with
  | nil => exact ⟨fun _ _ h => (by cases h), fun _ => ⟨[], .nil⟩⟩
  | cons x xs ih =>
    rw [List.forall_mem_cons, ← ih]
    constructor
    · rintro ⟨_, h⟩
      cases h with
      | cons hx hrest => exact ⟨⟨_, hx⟩, ⟨_, hrest⟩⟩
    · rintro ⟨⟨y, hx⟩, ys, hrest⟩
      exact ⟨y :: ys, .cons hx hrest⟩

theorem mapM_map_eq {f : α → Except ε α} {g : α → α} {xs : List α}
    (h : ∀ x ∈ xs, f (g x) = (f x).map g) :
    (xs.map g).mapM f = (xs.mapM f).map (List.map g) := by
  induction xs with
  | nil => rfl
  | cons x xs ih =>
    have hxs := ih fun y hy => h y (List.mem_cons_of_mem x hy)
    rw [List.map_cons, List.mapM_cons, List.mapM_cons, h x List.mem_cons_self, hxs]
    cases f x with
    | error e => rfl
    | ok y =>
      cases xs.mapM f with
      | error e => rfl
      | ok ys => rfl

end Results

namespace ValueEquality

/-- What a comparison becomes. -/
inductive Becomes : Node → Node → Prop where
  | pattern {span : Span} {op : Operator} {left right pattern : Node}
      (h : patternFor? op right = some pattern) :
      Becomes ⟨span, .binary op left right⟩ ⟨span, .isPattern left pattern⟩

theorem becomes_of_synthesize {n m : Node} (h : synthesize n = .ok m) : Becomes n m := by
  obtain ⟨span, shape⟩ := n
  cases shape with
  | binary op left right =>
    dsimp only [synthesize] at h
    split at h
    · rename_i pattern hpattern
      cases h
      exact .pattern hpattern
    · cases h
  | _ => cases h

end ValueEquality

namespace TryMethod

/-- What a method becomes. -/
inductive Becomes : Node → Node → Prop where
  | method {span typeSpan bodySpan : Span} {modifiers : List Modifier} {type : TypeName}
      {name : String} {parameters statements : List Node} {body : Node}
      (h : fixBody bodySpan statements = .ok body) :
      Becomes
        ⟨span, .methodDecl modifiers ⟨typeSpan, .typeRef type⟩ name parameters
          ⟨bodySpan, .block statements⟩⟩
        ⟨span, .methodDecl modifiers ⟨typeSpan, .typeRef (.predefined .bool)⟩ name
          (parameters ++ [outParameter (.point (outOffset ⟨typeSpan, .typeRef type⟩ parameters))
            type]) body⟩

theorem becomes_of_synthesize {n m : Node} (h : synthesize n = .ok m) : Becomes n m := by
  obtain ⟨span, shape⟩ := n
  cases shape with
  | methodDecl modifiers returnType name parameters body =>
    dsimp only [synthesize] at h
    split at h
    · rename_i statements type hblock htype
      obtain ⟨newBody, hbody, h⟩ := bind_eq_ok.1 h
      cases h
      obtain ⟨typeSpan, typeShape⟩ := returnType
      cases htype
      obtain ⟨bodySpan, bodyShape⟩ := body
      cases hblock
      exact .method hbody
    · cases h
    · cases h
  | _ => cases h

end TryMethod

namespace Registry

variable {registry : Registry} {tree target : Node} {f : Finding} {r : Rule}

/-- The rule that a finding names, and the node in the tree that the rule is to replace for it. -/
structure Resolves (registry : Registry) (tree : Node) (f : Finding) (r : Rule) (target : Node) :
    Prop where
  rule : registry.find? f.ruleId = some r
  node : tree.findSpan? f.span r.targetKind = some target

theorem ruleFor_eq_ok : registry.ruleFor f = .ok r ↔ registry.find? f.ruleId = some r := by
  rw [ruleFor]
  split <;> simp_all

theorem targetOf_eq_ok :
    targetOf tree r f = .ok target ↔ tree.findSpan? f.span r.targetKind = some target := by
  rw [targetOf, mapError_eq_ok, Node.locate]
  split <;> simp_all

theorem Resolves.ruleFor (h : registry.Resolves tree f r target) : registry.ruleFor f = .ok r :=
  ruleFor_eq_ok.2 h.rule

theorem Resolves.targetOf (h : registry.Resolves tree f r target) :
    targetOf tree r f = .ok target :=
  targetOf_eq_ok.2 h.node

theorem Resolves.unique {s : Rule} {other : Node} (h : registry.Resolves tree f r target)
    (h' : registry.Resolves tree f s other) : r = s ∧ target = other := by
  obtain rfl : r = s := Option.some.inj (h.rule.symm.trans h'.rule)
  exact ⟨rfl, Option.some.inj (h.node.symm.trans h'.node)⟩

theorem Resolves.applyFix (h : registry.Resolves tree f r target) :
    registry.applyFix tree f = ((r.synthesize target).mapError .rule >>= fun new =>
      (tree.substitute target new).mapError .substitution) := by
  rw [Registry.applyFix, h.ruleFor]
  change (Registry.targetOf tree r f >>= _) = _
  rw [h.targetOf]
  rfl

theorem applyFix_eq_ok {t : Node} : registry.applyFix tree f = .ok t ↔
    ∃ r target new, registry.Resolves tree f r target ∧ r.synthesize target = .ok new ∧
      tree.substitute target new = .ok t := by
  constructor
  · intro h
    rw [Registry.applyFix, bind_eq_ok] at h
    obtain ⟨r, hr, h⟩ := h
    obtain ⟨target, htarget, h⟩ := bind_eq_ok.1 h
    obtain ⟨new, hnew, h⟩ := bind_eq_ok.1 h
    exact ⟨r, target, new, ⟨ruleFor_eq_ok.1 hr, targetOf_eq_ok.1 htarget⟩,
      mapError_eq_ok.1 hnew, mapError_eq_ok.1 h⟩
  · rintro ⟨r, target, new, h, hnew, ht⟩
    rw [h.applyFix, bind_eq_ok]
    exact ⟨new, mapError_eq_ok.2 hnew, mapError_eq_ok.2 ht⟩

/-- The decisions on the findings of a batch, from a state in which the last applied fix, if there
is one, ends at the claimed offset. -/
inductive Decides (registry : Registry) (tree : Node) :
    Option UInt32 → List Finding → Batch → Prop where
  | nil {claimed : Option UInt32} : Decides registry tree claimed [] ⟨[], [], []⟩
  | defer {claimed : Option UInt32} {f : Finding} {fs : List Finding} {batch : Batch}
      (hinside : claimed.any fun stop => f.span.start < stop)
      (h : Decides registry tree claimed fs batch) :
      Decides registry tree claimed (f :: fs) { batch with deferred := f :: batch.deferred }
  | apply {claimed : Option UInt32} {f : Finding} {fs : List Finding} {batch : Batch} {r : Rule}
      {target node : Node} (hfree : ¬ claimed.any fun stop => f.span.start < stop)
      (hr : registry.Resolves tree f r target) (hnode : r.synthesize target = .ok node)
      (h : Decides registry tree (some f.span.stop) fs batch) :
      Decides registry tree claimed (f :: fs)
        { batch with applied := (f, ⟨f.span, r.targetKind, node⟩) :: batch.applied }
  | fail {claimed : Option UInt32} {f : Finding} {fs : List Finding} {batch : Batch} {r : Rule}
      {target : Node} {cause : RuleError}
      (hfree : ¬ claimed.any fun stop => f.span.start < stop)
      (hr : registry.Resolves tree f r target) (hcause : r.synthesize target = .error cause)
      (h : Decides registry tree claimed fs batch) :
      Decides registry tree claimed (f :: fs) { batch with failed := (f, cause) :: batch.failed }

variable {claimed : Option UInt32} {fs : List Finding} {batch : Batch}

theorem decides_of_decideAll (h : registry.decideAll tree claimed fs = .ok batch) :
    registry.Decides tree claimed fs batch := by
  induction fs generalizing claimed batch with
  | nil =>
    cases h
    exact .nil
  | cons f fs ih =>
    rw [decideAll] at h
    split at h
    · rename_i hinside
      obtain ⟨rest, hrest, h⟩ := bind_eq_ok.1 h
      cases h
      exact .defer hinside (ih hrest)
    · rename_i hfree
      obtain ⟨r, hr, h⟩ := bind_eq_ok.1 h
      obtain ⟨target, htarget, h⟩ := bind_eq_ok.1 h
      have hresolves : registry.Resolves tree f r target :=
        ⟨ruleFor_eq_ok.1 hr, targetOf_eq_ok.1 htarget⟩
      split at h
      · rename_i node hnode
        obtain ⟨rest, hrest, h⟩ := bind_eq_ok.1 h
        cases h
        exact .apply hfree hresolves hnode (ih hrest)
      · rename_i cause hcause
        obtain ⟨rest, hrest, h⟩ := bind_eq_ok.1 h
        cases h
        exact .fail hfree hresolves hcause (ih hrest)

theorem exists_decides (h : ∀ f ∈ fs, ∃ r target, registry.Resolves tree f r target) :
    ∃ batch, registry.decideAll tree claimed fs = .ok batch := by
  induction fs generalizing claimed with
  | nil => exact ⟨_, rfl⟩
  | cons f fs ih =>
    obtain ⟨r, target, hr⟩ := h f List.mem_cons_self
    have hrest (claimed : Option UInt32) :
        ∃ batch, registry.decideAll tree claimed fs = .ok batch :=
      ih fun g hg => h g (List.mem_cons_of_mem f hg)
    rw [decideAll]
    split
    · obtain ⟨batch, hbatch⟩ := hrest claimed
      rw [hbatch]
      exact ⟨_, rfl⟩
    · simp only [bind, Except.bind, hr.ruleFor, hr.targetOf]
      cases r.synthesize target with
      | ok node =>
        obtain ⟨batch, hbatch⟩ := hrest (some f.span.stop)
        simp only [hbatch]
        exact ⟨_, rfl⟩
      | error cause =>
        obtain ⟨batch, hbatch⟩ := hrest claimed
        simp only [hbatch]
        exact ⟨_, rfl⟩

theorem Decides.of_mem_applied (h : registry.Decides tree claimed fs batch) {new : Replacement}
    (hf : (f, new) ∈ batch.applied) :
    ∃ r target, registry.Resolves tree f r target ∧ r.synthesize target = .ok new.node ∧
      new.span = f.span ∧ new.kind = r.targetKind := by
  induction h with
  | nil => cases hf
  | defer _ _ ih => exact ih hf
  | apply _ hr hnode _ ih =>
    rcases List.mem_cons.1 hf with he | hf
    · cases he
      exact ⟨_, _, hr, hnode, rfl, rfl⟩
    · exact ih hf
  | fail _ _ _ _ ih => exact ih hf

theorem Decides.of_mem_failed (h : registry.Decides tree claimed fs batch) {cause : RuleError}
    (hf : (f, cause) ∈ batch.failed) :
    ∃ r target, registry.Resolves tree f r target ∧ r.synthesize target = .error cause := by
  induction h with
  | nil => cases hf
  | defer _ _ ih => exact ih hf
  | apply _ _ _ _ ih => exact ih hf
  | fail _ hr hcause _ ih =>
    rcases List.mem_cons.1 hf with he | hf
    · cases he
      exact ⟨_, _, hr, hcause⟩
    · exact ih hf

/-- Every finding of a batch is applied, failed or deferred. -/
theorem Decides.perm (h : registry.Decides tree claimed fs batch) :
    (batch.applied.map Prod.fst ++ batch.failed.map Prod.fst ++ batch.deferred).Perm fs := by
  induction h with
  | nil => exact .nil
  | defer _ _ ih => exact List.perm_middle.trans (ih.cons _)
  | apply _ _ _ _ ih => exact ih.cons _
  | @fail _ f _ batch _ _ _ _ _ _ _ ih =>
    rw [List.append_assoc] at ih ⊢
    exact List.perm_middle.trans (ih.cons f)

theorem Decides.sublist_applied (h : registry.Decides tree claimed fs batch) :
    (batch.applied.map Prod.fst).Sublist fs := by
  induction h with
  | nil => exact .slnil
  | defer _ _ ih => exact ih.cons _
  | apply _ _ _ _ ih => exact ih.cons_cons _
  | fail _ _ _ _ ih => exact ih.cons _

/-- Each applied fix starts where those before it have ended, or later. -/
theorem Decides.pairwise_applied (h : registry.Decides tree claimed fs batch)
    (hordered : ∀ p ∈ batch.applied, p.1.span.start ≤ p.1.span.stop) :
    (∀ stop ∈ claimed, ∀ p ∈ batch.applied, stop ≤ p.1.span.start) ∧
      batch.applied.Pairwise fun p q => p.1.span.stop ≤ q.1.span.start := by
  induction h with
  | nil => exact ⟨by simp, .nil⟩
  | defer _ _ ih => exact ih hordered
  | @apply _ f _ _ _ _ _ hfree _ _ _ ih =>
    obtain ⟨hself, hrest⟩ := List.forall_mem_cons.1 hordered
    obtain ⟨hbehind, hpairwise⟩ := ih hrest
    have hbehind := hbehind f.span.stop rfl
    refine ⟨fun stop hstop => List.forall_mem_cons.2 ?_, List.pairwise_cons.2 ⟨hbehind, hpairwise⟩⟩
    cases hstop
    have hfirst : stop ≤ f.span.start := UInt32.not_lt.1 fun hlt => hfree (by simpa using hlt)
    exact ⟨hfirst, fun p hp => UInt32.le_trans hfirst (UInt32.le_trans hself (hbehind p hp))⟩
  | fail _ _ _ _ ih => exact ih hordered

theorem applyAll_eq_ok {outcome : Outcome} : registry.applyAll tree fs = .ok outcome ↔
    ∃ batch, registry.decideAll tree none (fs.mergeSort fun f g => f.span.outerLe g.span) =
        .ok batch ∧
      tree.applyReplacements (batch.applied.map Prod.snd) = .ok outcome.tree ∧
      outcome.applied = batch.applied.map Prod.fst ∧ outcome.deferred = batch.deferred ∧
      outcome.failed = batch.failed := by
  rw [applyAll, bind_eq_ok]
  refine exists_congr fun batch => and_congr_right fun _ => ?_
  rw [bind_eq_ok]
  constructor
  · rintro ⟨fixed, hfixed, h⟩
    cases h
    exact ⟨mapError_eq_ok.1 hfixed, rfl, rfl, rfl⟩
  · rintro ⟨hfixed, happlied, hdeferred, hfailed⟩
    obtain ⟨t, applied, deferred, failed⟩ := outcome
    cases happlied
    cases hdeferred
    cases hfailed
    exact ⟨t, mapError_eq_ok.2 hfixed, rfl⟩

theorem applyAll_eq_error {e : FixError}
    (h : registry.decideAll tree none (fs.mergeSort fun f g => f.span.outerLe g.span) =
      .ok batch) : registry.applyAll tree fs = .error e ↔
    ∃ cause, tree.applyReplacements (batch.applied.map Prod.snd) = .error cause ∧
      .substitution cause = e := by
  rw [applyAll, h, bind_eq_error]
  simp only [reduceCtorEq, Except.ok.injEq, false_or, exists_eq_left']
  rw [bind_eq_error, mapError_eq_error]
  apply or_iff_left
  rintro ⟨fixed, -, h⟩
  cases h

theorem perm_of_applyAll {outcome : Outcome} (h : registry.applyAll tree fs = .ok outcome) :
    (outcome.applied ++ outcome.failed.map Prod.fst ++ outcome.deferred).Perm fs := by
  obtain ⟨batch, hbatch, -, happlied, hdeferred, hfailed⟩ := applyAll_eq_ok.1 h
  rw [happlied, hdeferred, hfailed]
  exact (decides_of_decideAll hbatch).perm.trans (List.mergeSort_perm _ _)

theorem pending_eq_filter (registry : Registry) (oracle : TypeOracle) (tree : Node)
    (failed : List (Finding × RuleError)) : registry.pending oracle tree failed =
      (registry.report oracle tree).filter fun f => decide (f ∉ failed.map Prod.fst) := by
  apply List.filter_congr
  intro f _
  rw [Bool.eq_iff_iff]
  simp only [Bool.not_eq_true', List.any_eq_false, beq_iff_eq, decide_eq_true_eq, List.mem_map,
    not_exists, not_and]

theorem pending_nil (registry : Registry) (oracle : TypeOracle) (tree : Node) :
    registry.pending oracle tree [] = registry.report oracle tree :=
  List.filter_eq_self.2 fun _ _ => rfl

/-- What a pass makes true of the tree, the applied and the failed findings, given what was true
with one more pass to go, holds in the end. Then no pass is left to go, or no finding is. -/
theorem exists_fixPasses {oracle : TypeOracle}
    (Inv : Nat → Node → List Finding → List (Finding × RuleError) → Prop)
    (hstep : ∀ passes tree applied failed, Inv (passes + 1) tree applied failed → ∃ pass,
      registry.applyAll tree (registry.pending oracle tree failed) = .ok pass ∧
        Inv passes pass.tree (applied ++ pass.applied) (failed ++ pass.failed))
    {passes : Nat} {applied : List Finding} {failed : List (Finding × RuleError)}
    (h : Inv passes tree applied failed) :
    ∃ outcome left, registry.fixPasses oracle passes tree applied failed = .ok outcome ∧
      Inv left outcome.tree outcome.applied outcome.failed ∧
      outcome.deferred = registry.pending oracle outcome.tree outcome.failed ∧
      (left = 0 ∨ outcome.deferred = []) := by
  induction passes generalizing tree applied failed with
  | zero => exact ⟨_, 0, rfl, h, rfl, .inl rfl⟩
  | succ passes ih =>
    rw [fixPasses.eq_def]
    dsimp only
    split
    · rename_i hnone
      exact ⟨_, passes + 1, rfl, h, hnone.symm, .inr rfl⟩
    · obtain ⟨pass, hpass, hnext⟩ := hstep passes tree applied failed h
      obtain ⟨outcome, left, hfix, houtcome⟩ := ih hnext
      exact ⟨outcome, left, bind_eq_ok.2 ⟨pass, hpass, hfix⟩, houtcome⟩

end Registry

end TreeLint
