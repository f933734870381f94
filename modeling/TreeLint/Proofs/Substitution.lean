import TreeLint.Proofs.Children
import TreeLint.Proofs.Nesting
import TreeLint.Syntax.Substitution

namespace TreeLint

namespace Node

variable {m new root target : Node} {p : Path}

theorem subtree?_cons {n : Node} {i : Nat} :
    n.subtree? (i :: p) = n.children[i]?.bind fun c => c.subtree? p := rfl

theorem subtree?_append {n : Node} (p q : Path) :
    n.subtree? (p ++ q) = (n.subtree? p).bind fun m => m.subtree? q := by
  induction p generalizing n with
  | nil => rfl
  | cons i p ih =>
    rw [List.cons_append, subtree?_cons, subtree?_cons]
    cases n.children[i]? with
    | none => rfl
    | some c => exact ih

theorem replace?_cons {n : Node} {i : Nat} :
    n.replace? (i :: p) new =
      n.children[i]?.bind fun c => (c.replace? p new).bind fun d => n.withChild? i d := rfl

theorem mem_preorder_of_subtree? (h : root.subtree? p = some m) : m ∈ root.preorder := by
  induction p generalizing root with
  | nil =>
    cases h
    exact self_mem_preorder _
  | cons i p ih =>
    rw [subtree?_cons, Option.bind_eq_some_iff] at h
    obtain ⟨c, hc, hm⟩ := h
    exact mem_preorder_of_child (List.mem_of_getElem? hc) (ih hm)

theorem pathTo?_eq (target root : Node) :
    pathTo? target root = if root = target then some [] else
      root.children.zipIdx.findSome? fun (c, i) =>
        if c.span.contains target.span then (pathTo? target c).map (i :: ·) else none := by
  rw [pathTo?]
  congr 1
  rw [List.findSome?_subtype (g := fun (c, i) =>
    if c.span.contains target.span then (pathTo? target c).map (i :: ·) else none)]
  · rw [List.unattach_attach]
  · intro _ _
    rfl

theorem subtree?_of_pathTo? (h : pathTo? target root = some p) : root.subtree? p = some target := by
  induction root using induction_children generalizing p with
  | h n ih =>
    rw [pathTo?_eq] at h
    split at h
    · rename_i hn
      cases h
      rw [subtree?, hn]
    · obtain ⟨⟨c, i⟩, hci, h⟩ := List.exists_of_findSome?_eq_some h
      have hc : n.children[i]? = some c := List.mem_zipIdx_iff_getElem?.1 hci
      dsimp only at h
      split at h
      · obtain ⟨q, hq, rfl⟩ := Option.map_eq_some_iff.1 h
        rw [subtree?_cons, hc]
        exact ih c (List.mem_of_getElem? hc) hq
      · cases h

theorem pathTo?_eq_none (h : target ∉ root.preorder) : pathTo? target root = none := by
  cases hp : pathTo? target root with
  | none => rfl
  | some p => exact absurd (mem_preorder_of_subtree? (subtree?_of_pathTo? hp)) h

theorem pathTo?_of_child {c : Node} {as bs : List Node} (hroot : root ≠ target)
    (hchildren : root.children = as ++ c :: bs)
    (has : ∀ a ∈ as, a.span.contains target.span → pathTo? target a = none)
    (hspan : c.span.contains target.span) (hp : pathTo? target c = some p) :
    pathTo? target root = some (as.length :: p) := by
  rw [pathTo?_eq, if_neg hroot, hchildren, List.zipIdx_append, List.findSome?_append,
    List.findSome?_eq_none_iff.2, Option.none_or, List.zipIdx_cons, List.findSome?_cons]
  · simp [hspan, hp]
  · rintro ⟨a, i⟩ hai
    have ha : a ∈ as := List.fst_mem_of_mem_zipIdx hai
    dsimp only
    split
    · rw [has a ha ‹_›, Option.map_none]
    · rfl

theorem substitute_eq_ok {r : Node} (h : root.substitute target new = .ok r) :
    ∃ p, root.subtree? p = some target ∧ root.replace? p new = some r := by
  rw [substitute] at h
  split at h
  · cases h
  · split at h
    · rename_i result hresult
      cases h
      obtain ⟨p, hp, hr⟩ := Option.bind_eq_some_iff.1 hresult
      exact ⟨p, subtree?_of_pathTo? hp, hr⟩
    · cases h

theorem substitute_of_pathTo? {r : Node} (hcategory : target.category = new.category)
    (hp : pathTo? target root = some p) (hr : root.replace? p new = some r) :
    root.substitute target new = .ok r := by
  rw [substitute, if_neg (not_not.2 hcategory), hp, Option.bind_some, hr]

theorem locate_eq_ok {span : Span} {kind : Kind} :
    root.locate span kind = .ok m ↔ root.findSpan? span kind = some m := by
  rw [locate]
  split <;> simp_all

theorem of_findSpan?_eq_some {span : Span} {kind : Kind} (h : root.findSpan? span kind = some m) :
    m ∈ root.preorder ∧ m.span = span ∧ m.kind = kind := by
  rw [findSpan?] at h
  have hm := List.find?_some h
  rw [Bool.and_eq_true, beq_iff_eq, beq_iff_eq] at hm
  exact ⟨Walk.mem_preorder_of_mem_toList (List.mem_of_find?_eq_some h), hm⟩

theorem SpansNest.replace? {r : Node} (h : root.SpansNest) (hm : root.subtree? p = some m)
    (hspan : new.span = m.span) (hnew : new.SpansNest) (hr : root.replace? p new = some r) :
    r.SpansNest ∧ r.span = root.span := by
  induction p generalizing root r with
  | nil =>
    cases hm
    cases hr
    exact ⟨hnew, hspan⟩
  | cons i p ih =>
    rw [subtree?_cons, Option.bind_eq_some_iff] at hm
    obtain ⟨c, hc, hm⟩ := hm
    rw [replace?_cons, hc, Option.bind_some, Option.bind_eq_some_iff] at hr
    obtain ⟨d, hd, hr⟩ := hr
    obtain ⟨hnest, hdc⟩ := ih (h.child (List.mem_of_getElem? hc)) hm hd
    obtain ⟨hrspan, -, hchildren⟩ := withChild?_eq_some hr
    -- The new child has the old one's span, so the node above sees no difference.
    have hspans : r.children.map span = root.children.map span := by
      obtain ⟨hi, hci⟩ := List.getElem?_eq_some_iff.1 hc
      rw [hchildren, List.map_set, hdc, ← hci]
      apply List.ext_getElem?
      intro j
      by_cases hj : i = j
      · subst hj
        simp [hi]
      · rw [List.getElem?_set_ne hj]
    refine ⟨spansNest_iff.2 ⟨?_, fun x hx => ?_⟩, hrspan⟩
    · rw [hspans, hrspan]
      exact (spansNest_iff.1 h).1
    · rw [hchildren] at hx
      rcases List.mem_or_eq_of_mem_set hx with hx | rfl
      · exact h.child hx
      · exact hnest

theorem SpansNest.substitute {r : Node} (h : root.SpansNest) (hspan : new.span = target.span)
    (hnew : new.SpansNest) (hr : root.substitute target new = .ok r) :
    r.SpansNest ∧ r.span = root.span := by
  obtain ⟨p, hp, hr⟩ := substitute_eq_ok hr
  exact h.replace? hp hspan hnew hr

end Node

end TreeLint
