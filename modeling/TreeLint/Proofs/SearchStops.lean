import TreeLint.Proofs.FirstOccurrence
import TreeLint.Proofs.FixSteps

namespace TreeLint

theorem find?_eq_bind {α β : Type} {f : α → Option β} {xs : List α} {ys : List β}
    (h : xs.map f = ys.map some) (test : β → Bool) :
    ys.find? test = (xs.find? fun x => (f x).any test).bind f := by
  induction xs generalizing ys with
  | nil =>
    rw [List.map_eq_nil_iff.1 h.symm]
    rfl
  | cons x xs ih =>
    cases ys with
    | nil => cases h
    | cons y ys =>
      obtain ⟨hx, hxs⟩ := List.cons.inj h
      rw [List.find?_cons, List.find?_cons, hx, Option.any_some, ih hxs]
      cases test y with
      | false => rfl
      | true => exact hx.symm

namespace Node

variable {enters : Node → Bool} {span : Span} {kind : Kind} {m n new result root target : Node}
  {p : Path}

/-- The positions that a walk visits, in its order. -/
def visited (enters : Node → Bool) (n : Node) : List Path :=
  [] :: n.children.zipIdx.attach.flatMap fun ⟨(c, i), _⟩ =>
    if enters c then (c.visited enters).map (i :: ·) else []
termination_by sizeOf n
decreasing_by
  rename_i h _
  exact sizeOf_lt_of_mem (by simpa using List.fst_mem_of_mem_zipIdx h)

theorem visited_eq (enters : Node → Bool) (n : Node) : n.visited enters =
    [] :: n.children.zipIdx.flatMap fun (c, i) =>
      if enters c then (c.visited enters).map (i :: ·) else [] := by
  rw [visited]
  congr 1
  rw [List.flatMap_subtype (g := fun (c, i) =>
    if enters c then (c.visited enters).map (i :: ·) else [])]
  · rw [List.unattach_attach]
  · intro _ _
    rfl

theorem map_subtree?_visited (enters : Node → Bool) (n : Node) :
    (n.visited enters).map n.subtree? = (⟨enters, [n]⟩ : Walk).toList.map some := by
  induction n using induction_children with
  | h n ih =>
    have hchild : ∀ x ∈ n.children.zipIdx,
        (if enters x.1 then (x.1.visited enters).map (x.2 :: ·) else []).map n.subtree? =
          if enters x.1 then (⟨enters, [x.1]⟩ : Walk).toList.map some else [] := by
      intro x hx
      by_cases henters : enters x.1
      · rw [if_pos henters, if_pos henters, ← ih x.1 (List.fst_mem_of_mem_zipIdx hx), List.map_map]
        exact List.map_congr_left fun p _ => subtree?_cons_of_mem_zipIdx hx
      · rw [if_neg henters, if_neg henters, List.map_nil]
    rw [visited_eq, Walk.toList_singleton, List.map_cons, List.map_cons, List.map_flatMap,
      List.map_flatMap, flatMap_filter]
    congr 1
    rw [← List.zipIdx_map_fst 0 n.children, List.flatMap_map, List.zipIdx_map_fst]
    exact List.flatMap_congr hchild

/-- The position at which the search for a span and a kind stops. -/
def stop? (root : Node) (span : Span) (kind : Kind) : Option Path :=
  (root.visited fun n => n.span.contains span).find? fun p =>
    (root.subtree? p).any fun n => n.span == span && n.kind == kind

theorem findSpan?_eq_bind_stop? (root : Node) (span : Span) (kind : Kind) :
    root.findSpan? span kind = (root.stop? span kind).bind root.subtree? :=
  find?_eq_bind (map_subtree?_visited _ root) _

theorem stop?_eq_none_iff : n.stop? span kind = none ↔ n.findSpan? span kind = none := by
  rw [findSpan?_eq_bind_stop?]
  constructor
  · intro h
    rw [h, Option.bind_none]
  · intro h
    cases hp : n.stop? span kind with
    | none => rfl
    | some p =>
      rw [hp, Option.bind_some] at h
      have hany := List.find?_some hp
      rw [h] at hany
      cases hany

theorem stop?_eq (span : Span) (kind : Kind) (n : Node) :
    n.stop? span kind = if n.span = span ∧ n.kind = kind then some [] else
      n.children.zipIdx.findSome? fun (c, i) =>
        if c.span.contains span then (c.stop? span kind).map (i :: ·) else none := by
  rw [stop?, visited_eq, List.find?_cons, subtree?, Option.any_some]
  by_cases hn : n.span = span ∧ n.kind = kind
  · simp [hn]
  · have hself : (n.span == span && n.kind == kind) = false := by simpa using hn
    rw [if_neg hn, hself, List.find?_flatMap]
    apply findSome?_congr
    rintro ⟨c, i⟩ hci
    dsimp only
    split
    · rw [List.find?_map, stop?]
      congr 2
      funext p
      rw [Function.comp_apply, subtree?_cons_of_mem_zipIdx hci]
    · rfl

theorem Located.stop?_eq (h : Located span kind n p m) : n.stop? span kind = some p := by
  induction h with
  | here h => rw [Node.stop?_eq, if_pos h]
  | @child n c m as bs p hn hchildren has hc _ ih =>
    rw [Node.stop?_eq, if_neg hn, hchildren, List.zipIdx_append, List.findSome?_append,
      List.findSome?_eq_none_iff.2, Option.none_or, List.zipIdx_cons, List.findSome?_cons]
    · simp [hc, ih]
    · rintro ⟨a, i⟩ hai
      dsimp only
      split
      · rename_i hcontains
        have ha : a ∈ as := List.fst_mem_of_mem_zipIdx hai
        rw [stop?_eq_none_iff.2 (has a ha hcontains), Option.map_none]
      · rfl

/-- The node that was found is replaced where the search for it stopped. -/
theorem exists_substitute_of_findSpan? (h : root.findSpan? span kind = some target)
    (hcategory : target.category = new.category) :
    ∃ p result, root.stop? span kind = some p ∧ root.substitute target new = .ok result ∧
      ReplacedAt root p new result := by
  obtain ⟨p, hp⟩ := exists_located h
  have hresult := replace?_eq_replacing hp.subtree?_eq new
  exact ⟨p, _, hp.stop?_eq, substitute_of_pathTo? hcategory hp.pathTo?_eq hresult,
    replacedAt_of_replace? hresult⟩

theorem span_replace? (hm : root.subtree? p = some m) (hspan : new.span = m.span)
    (hresult : root.replace? p new = some result) : result.span = root.span := by
  cases p with
  | nil =>
    cases hm
    cases hresult
    exact hspan
  | cons i p =>
    rw [replace?_cons, Option.bind_eq_some_iff] at hresult
    obtain ⟨c, -, hresult⟩ := hresult
    obtain ⟨d, -, hresult⟩ := Option.bind_eq_some_iff.1 hresult
    exact (withChild?_eq_some hresult).1

/-- Where children lie within their parents, the search for a new node ends at its place when no
node elsewhere has its span and kind. -/
theorem Contained.located_replace? (h : root.Contained) (hm : root.subtree? p = some m)
    (hspan : new.span = m.span) (hresult : root.replace? p new = some result)
    (helsewhere : ∀ q d, root.subtree? q = some d → ¬ p <+: q →
      ¬ (d.span = new.span ∧ d.kind = new.kind)) :
    Located new.span new.kind result p new := by
  induction p generalizing root result with
  | nil =>
    cases hresult
    exact .here ⟨rfl, rfl⟩
  | cons i p ih =>
    rw [subtree?_cons, Option.bind_eq_some_iff] at hm
    obtain ⟨c, hc, hm⟩ := hm
    rw [replace?_cons, hc, Option.bind_some, Option.bind_eq_some_iff] at hresult
    obtain ⟨d, hd, hresult⟩ := hresult
    obtain ⟨hrootSpan, hform, hchildren⟩ := withChild?_eq_some hresult
    obtain ⟨hi, hci⟩ := List.getElem?_eq_some_iff.1 hc
    obtain ⟨as, bs, hsplit, hlength, hset⟩ : ∃ as bs,
        root.children = as ++ root.children[i] :: bs ∧ as.length = i ∧
          root.children.set i d = as ++ d :: bs := List.exists_of_set hi
    have hcontained := h.child (List.mem_of_getElem? hc)
    have hbelow : Located new.span new.kind d p new := by
      apply ih hcontained hm hd
      intro q e he hpq
      apply helsewhere (i :: q) e
      · rw [subtree?_cons, hc, Option.bind_some, he]
      · intro hprefix
        exact hpq (List.cons_prefix_cons.1 hprefix).2
    rw [← hlength]
    apply Located.child _ (hchildren.trans hset) _ _ hbelow
    · rw [hrootSpan, kind_eq_of_form_eq hform]
      exact helsewhere [] root rfl (by simp)
    · -- A node found in an earlier child would stand beside the place.
      intro a ha _
      cases hfound : a.findSpan? new.span new.kind with
      | none => rfl
      | some e =>
        obtain ⟨hmem, hmatch⟩ := of_findSpan?_eq_some hfound
        obtain ⟨q, -, hq⟩ := exists_mem_places hmem
        obtain ⟨j, hj, hja⟩ := List.mem_iff_getElem.1 ha
        have hjroot : root.children[j]? = some a := by
          rw [hsplit, List.getElem?_append_left hj, List.getElem?_eq_getElem hj, hja]
        refine absurd hmatch (helsewhere (j :: q) e ?_ ?_)
        · rw [subtree?_cons, hjroot, Option.bind_some, hq]
        · intro hprefix
          have hij := (List.cons_prefix_cons.1 hprefix).1
          omega
    · rw [span_replace? hm hspan hd, hspan]
      exact hcontained.within (mem_preorder_of_subtree? hm)

/-- A node with the target's span that is put in for it is found again by its span and kind, unless
a node elsewhere has both. -/
theorem substituted_found_again (h : root.Contained) (ht : target ∈ root.preorder)
    (hcategory : target.category = new.category) (hspan : new.span = target.span) :
    ∃ p result, root.substitute target new = .ok result ∧ ReplacedAt root p new result ∧
      root.places.find? (fun q => root.subtree? q == some target) = some p ∧
      ((∀ q m, root.subtree? q = some m → ¬ p <+: q →
          ¬ (m.span = new.span ∧ m.kind = new.kind)) →
        result.findSpan? new.span new.kind = some new ∧
          result.stop? new.span new.kind = some p) := by
  obtain ⟨p, hp⟩ := h.exists_pathTo? ht
  have hm : root.subtree? p = some target := subtree?_of_pathTo? hp
  have hresult := replace?_eq_replacing hm new
  refine ⟨p, _, substitute_of_pathTo? hcategory hp hresult, replacedAt_of_replace? hresult, ?_, ?_⟩
  · rw [← h.pathTo?_eq, hp]
  · intro helsewhere
    have hlocated := h.located_replace? hm hspan hresult helsewhere
    exact ⟨hlocated.findSpan?_eq, hlocated.stop?_eq⟩

/-- The comparison in `TryGet` becomes one whose left operand has the same span and kind. The search
stops above that operand. -/
theorem substituted_found_again_tryGet :
    let b : Node := ⟨⟨27, 28⟩, .identifier "b"⟩
    let comparison : Node := ⟨⟨22, 28⟩, .binary .equals ⟨⟨22, 23⟩, .identifier "a"⟩ b⟩
    let chained : Node := ⟨⟨22, 28⟩, .binary .notEquals comparison b⟩
    tryGet.Contained ∧ comparison ∈ tryGet.preorder ∧
      ∃ result, tryGet.substitute comparison chained = .ok result ∧
        result.findSpan? ⟨22, 28⟩ .binary = some chained := by
  intro b comparison chained
  have hcontained : tryGet.Contained := by decide +kernel
  have hmem : comparison ∈ tryGet.preorder := by decide +kernel
  have hcategory : comparison.category = chained.category := rfl
  obtain ⟨p, result, hresult, -, hp, hfound⟩ :=
    substituted_found_again hcontained hmem hcategory rfl
  have helsewhere : ∀ q m, tryGet.subtree? q = some m → ¬ p <+: q →
      ¬ (m.span = chained.span ∧ m.kind = chained.kind) := by
    intro q m hm hpq hmatch
    -- The comparison is the only node of its kind, and it stands at one position.
    have hnodup : tryGet.preorder.Pairwise (· ≠ ·) := by decide +kernel
    have honly : ∀ m ∈ tryGet.preorder, m.kind = .binary → m = comparison := by decide +kernel
    obtain rfl := honly m (mem_preorder_of_subtree? hm) hmatch.2
    have hplace := List.find?_some hp
    rw [beq_iff_eq] at hplace
    obtain rfl : q = p := place_unique_of_pairwise hnodup (fun hne => hne rfl) hm hplace
    exact hpq (List.prefix_refl q)
  exact ⟨hcontained, hmem, result, hresult, (hfound helsewhere).1⟩

end Node

namespace Registry

variable {registry : Registry} {tree target : Node} {f : Finding} {r : Rule}

/-- Once a node is located for a finding, the substitution of its fix does not miss it. -/
theorem Resolves.applyFix_ne_notFound (h : registry.Resolves tree f r target) (kind : Kind)
    (span : Span) : registry.applyFix tree f ≠ .error (.substitution (.notFound kind span)) := by
  intro herror
  rw [h.applyFix, bind_eq_error] at herror
  rcases herror with herror | ⟨new, -, herror⟩
  · obtain ⟨cause, -, hcause⟩ := mapError_eq_error.1 herror
    cases hcause
  · obtain ⟨cause, hcause, hnotFound⟩ := mapError_eq_error.1 herror
    cases hnotFound
    by_cases hcategory : target.category = new.category
    · obtain ⟨-, result, -, hresult, -⟩ := Node.exists_substitute_of_findSpan? h.node hcategory
      rw [hresult] at hcause
      cases hcause
    · rw [Node.substitute, if_pos hcategory] at hcause
      cases hcause

end Registry

namespace Node

/-- In any tree, a node of the right category takes the place at which the search for a span and a
kind stops, and a fix whose node is located is not lost again. -/
theorem substituted_where_search_stops (root : Node) :
    (∀ span kind target new, root.findSpan? span kind = some target →
      new.category = kind.category →
      ∃ p result, root.stop? span kind = some p ∧ root.subtree? p = some target ∧
        root.substitute target new = .ok result ∧ ReplacedAt root p new result) ∧
    ∀ (registry : Registry) f r target, registry.ruleFor f = .ok r →
      Registry.targetOf root r f = .ok target →
      ∀ kind span, registry.applyFix root f ≠ .error (.substitution (.notFound kind span)) := by
  constructor
  · intro span kind target new hfound hcategory
    have hkind : target.kind = kind := (of_findSpan?_eq_some hfound).2.2
    have hsame : target.category = new.category := by
      rw [hcategory, category, hkind]
    obtain ⟨p, result, hp, hresult, hreplaced⟩ := exists_substitute_of_findSpan? hfound hsame
    rw [findSpan?_eq_bind_stop?, hp, Option.bind_some] at hfound
    exact ⟨p, result, hp, hfound, hresult, hreplaced⟩
  · intro registry f r target hr htarget
    have hresolves : registry.Resolves root f r target :=
      ⟨Registry.ruleFor_eq_ok.1 hr, Registry.targetOf_eq_ok.1 htarget⟩
    exact hresolves.applyFix_ne_notFound

/-- An assignment with an inverted span. Both its sides hold the comparison at `0..6`, the left one
inside a member access that lies elsewhere. -/
def readElsewhere : Node :=
  let comparison : Node :=
    ⟨⟨0, 6⟩, .binary .equals ⟨⟨0, 1⟩, .identifier "a"⟩ ⟨⟨5, 6⟩, .identifier "b"⟩⟩
  ⟨⟨9, 2⟩, .assignment ⟨⟨20, 21⟩, .memberAccess comparison "m"⟩ comparison⟩

theorem substituted_where_search_stops_readElsewhere :
    let new : Node := ⟨⟨0, 6⟩, .identifier "c"⟩
    let f := ValueEquality.rule.findingAt ⟨0, 6⟩
    (∃ target, readElsewhere.findSpan? ⟨0, 6⟩ .binary = some target ∧
        readElsewhere.subtree? [0, 0] = some target ∧
        ∃ result, readElsewhere.substitute target new = .ok result ∧
          ReplacedAt readElsewhere [1] new result) ∧
      ∀ kind span,
        Registry.builtin.applyFix readElsewhere f ≠ .error (.substitution (.notFound kind span)) := by
  intro new f
  obtain ⟨target, htarget⟩ : ∃ target, readElsewhere.subtree? [0, 0] = some target := ⟨_, rfl⟩
  have hfound : readElsewhere.findSpan? ⟨0, 6⟩ .binary = some target := by
    rw [← htarget]
    decide +kernel
  have hstop : readElsewhere.stop? ⟨0, 6⟩ .binary = some [1] := by decide +kernel
  obtain ⟨hplace, hfix⟩ := substituted_where_search_stops readElsewhere
  constructor
  · obtain ⟨p, result, hp, -, hresult, hreplaced⟩ := hplace ⟨0, 6⟩ .binary target new hfound rfl
    obtain rfl : p = [1] := Option.some.inj (hp.symm.trans hstop)
    exact ⟨target, hfound, htarget, result, hresult, hreplaced⟩
  · exact hfix Registry.builtin f ValueEquality.rule target rfl
      (Registry.targetOf_eq_ok.2 hfound)

end Node

end TreeLint
