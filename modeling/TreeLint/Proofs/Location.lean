import TreeLint.Proofs.Substitution

namespace TreeLint

namespace Node

variable {span : Span} {kind : Kind} {m n new root : Node} {p : Path}

theorem findSpan?_eq (span : Span) (kind : Kind) (n : Node) :
    n.findSpan? span kind = if n.span = span ∧ n.kind = kind then some n else
      n.children.findSome? fun c =>
        if c.span.contains span then c.findSpan? span kind else none := by
  rw [findSpan?, Walk.around, Walk.toList_singleton, List.find?_cons]
  by_cases h : n.span = span ∧ n.kind = kind
  · simp [h]
  · have hn : (n.span == span && n.kind == kind) = false := by simpa using h
    rw [if_neg h, hn, flatMap_filter, List.find?_flatMap]
    apply findSome?_congr
    intro c _
    split
    · rfl
    · rfl

theorem findSpan?_eq_none_iff : n.findSpan? span kind = none ↔
    ¬ (n.span = span ∧ n.kind = kind) ∧
      ∀ c ∈ n.children, c.span.contains span → c.findSpan? span kind = none := by
  rw [findSpan?_eq]
  by_cases h : n.span = span ∧ n.kind = kind
  · simp [h]
  · rw [if_neg h, List.findSome?_eq_none_iff, and_iff_right h]
    refine forall₂_congr fun c _ => ?_
    by_cases hc : c.span.contains span <;> simp [hc]

/-- Where the search for its span finds no node of its kind, the search for the node itself fails.
-/
theorem pathTo?_eq_none_of_findSpan? (h : n.findSpan? m.span m.kind = none) : pathTo? m n = none := by
  induction n using induction_children with
  | h n ih =>
    obtain ⟨hn, hchildren⟩ := findSpan?_eq_none_iff.1 h
    rw [pathTo?_eq, if_neg, List.findSome?_eq_none_iff]
    · rintro ⟨c, i⟩ hci
      have hc : c ∈ n.children := List.fst_mem_of_mem_zipIdx hci
      dsimp only
      split
      · rename_i hspan
        rw [ih c hc (hchildren c hc hspan), Option.map_none]
      · rfl
    · rintro rfl
      exact hn ⟨rfl, rfl⟩

/-- The search for a span and a kind ends at the position, where it finds the last node. -/
inductive Located (span : Span) (kind : Kind) : Node → Path → Node → Prop where
  | here {n : Node} (h : n.span = span ∧ n.kind = kind) : Located span kind n [] n
  | child {n c m : Node} {as bs : List Node} {p : Path}
      (hn : ¬ (n.span = span ∧ n.kind = kind)) (hchildren : n.children = as ++ c :: bs)
      (has : ∀ a ∈ as, a.span.contains span → a.findSpan? span kind = none)
      (hc : c.span.contains span) (h : Located span kind c p m) :
      Located span kind n (as.length :: p) m

theorem exists_located (h : n.findSpan? span kind = some m) : ∃ p, Located span kind n p m := by
  induction n using induction_children with
  | h n ih =>
    rw [findSpan?_eq] at h
    split at h
    · rename_i hn
      cases h
      exact ⟨[], .here hn⟩
    · rename_i hn
      obtain ⟨as, c, bs, hchildren, hc, has⟩ := List.findSome?_eq_some_iff.1 h
      split at hc
      · rename_i hspan
        obtain ⟨p, hp⟩ := ih c (by simp [hchildren]) hc
        refine ⟨_, .child hn hchildren (fun a ha hcontains => ?_) hspan hp⟩
        simpa [hcontains] using has a ha
      · cases hc

namespace Located

theorem findSpan?_eq (h : Located span kind n p m) : n.findSpan? span kind = some m := by
  induction h with
  | here h => rw [Node.findSpan?_eq, if_pos h]
  | @child n c m as bs p hn hchildren has hc _ ih =>
    have hbefore : as.findSome? (fun c =>
        if c.span.contains span then c.findSpan? span kind else none) = none := by
      refine List.findSome?_eq_none_iff.2 fun a ha => ?_
      by_cases hcontains : a.span.contains span
      · rw [if_pos hcontains, has a ha hcontains]
      · rw [if_neg hcontains]
    rw [Node.findSpan?_eq, if_neg hn, hchildren, List.findSome?_append, hbefore, Option.none_or,
      List.findSome?_cons, if_pos hc, ih]

theorem span_and_kind (h : Located span kind n p m) : m.span = span ∧ m.kind = kind :=
  (of_findSpan?_eq_some h.findSpan?_eq).2

/-- The search by value for the node that was found ends where it was found. -/
theorem pathTo?_eq (h : Located span kind n p m) : pathTo? m n = some p := by
  obtain ⟨hspan, hkind⟩ := h.span_and_kind
  induction h with
  | here => rw [Node.pathTo?_eq, if_pos rfl]
  | child hn hchildren has hc _ ih =>
    refine pathTo?_of_child ?_ hchildren (fun a ha hcontains => ?_) ?_ (ih hspan hkind)
    · rintro rfl
      exact hn ⟨hspan, hkind⟩
    · apply pathTo?_eq_none_of_findSpan?
      rw [hspan] at hcontains
      rw [hspan, hkind]
      exact has a ha hcontains
    · rwa [hspan]

theorem subtree?_eq (h : Located span kind n p m) : n.subtree? p = some m :=
  subtree?_of_pathTo? h.pathTo?_eq

theorem place_unique {d : Node} {q : Path} (h : Located span kind n p m)
    (h' : Located span kind n q d) : p = q := by
  obtain rfl : m = d := Option.some.inj (h.findSpan?_eq.symm.trans h'.findSpan?_eq)
  exact Option.some.inj (h.pathTo?_eq.symm.trans h'.pathTo?_eq)

theorem applyReplacement {r : Replacement} {t : Node} (h : Located r.span r.kind n p m)
    (hcategory : r.node.category = r.kind.category) (ht : n.replace? p r.node = some t) :
    n.applyReplacement r = .ok t := by
  have hm : m.category = r.node.category := by
    rw [hcategory, category, h.span_and_kind.2]
  rw [Node.applyReplacement, locate_eq_ok.2 h.findSpan?_eq]
  exact substitute_of_pathTo? hm h.pathTo?_eq ht

end Located

theorem applyReplacement_of_findSpan?_eq_none {r : Replacement}
    (h : n.findSpan? r.span r.kind = none) :
    n.applyReplacement r = .error (.notFound r.kind r.span) := by
  rw [applyReplacement, locate, h]
  rfl

/-- The position at which the search for a span and a kind ends. -/
def placeOf? (root : Node) (span : Span) (kind : Kind) : Option Path :=
  (root.findSpan? span kind).bind fun m => pathTo? m root

theorem placeOf?_eq_some : root.placeOf? span kind = some p ↔ ∃ m, Located span kind root p m := by
  rw [placeOf?, Option.bind_eq_some_iff]
  constructor
  · rintro ⟨m, hm, hp⟩
    obtain ⟨q, hq⟩ := exists_located hm
    obtain rfl : q = p := Option.some.inj (hq.pathTo?_eq.symm.trans hp)
    exact ⟨m, hq⟩
  · rintro ⟨m, hm⟩
    exact ⟨m, hm.findSpan?_eq, hm.pathTo?_eq⟩

end Node

end TreeLint
