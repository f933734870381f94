import TreeLint.Proofs.Nesting

namespace TreeLint

theorem findSome?_cons_eq_or {α β : Type} (f : α → Option β) (x : α) (xs : List α) :
    (x :: xs).findSome? f = (f x).or (xs.findSome? f) := by
  rw [List.findSome?_cons]
  cases f x with
  | none => rfl
  | some y => rfl

namespace Node

/-- What is wrong with a child, given the sibling behind it: it leaves its parent or, if it does
not, it overlaps that sibling. -/
def childViolation? (parent child : Node) (next : Option Node) : Option SpanViolation :=
  if parent.span.contains child.span then
    next.bind fun sibling =>
      if child.span.overlaps sibling.span then
        some (.overlap child.kind child.span sibling.kind sibling.span)
      else
        none
  else
    some (.escapes parent.kind parent.span child.kind child.span)

/-- The first violation in a tree, by recursion. -/
def firstViolation? (n : Node) : Option SpanViolation :=
  if n.span.stop < n.span.start then
    some (.inverted n.kind n.span)
  else
    (n.children.zipIdx.findSome? fun (c, i) => n.childViolation? c n.children[i + 1]?).or
      (n.children.attach.findSome? fun ⟨c, _⟩ => c.firstViolation?)
termination_by sizeOf n
decreasing_by exact sizeOf_lt_of_mem ‹_›

theorem siblingViolation?_cons (parent c : Node) (cs : List Node) :
    parent.siblingViolation? (c :: cs) =
      (parent.childViolation? c cs.head?).or (parent.siblingViolation? cs) := by
  rw [childViolation?]
  cases cs with
  | nil => by_cases hc : parent.span.contains c.span <;> simp [siblingViolation?, hc]
  | cons d cs =>
    by_cases hc : parent.span.contains c.span
    · by_cases hcd : c.span.overlaps d.span <;> simp [siblingViolation?, hc, hcd]
    · simp [siblingViolation?, hc]

theorem siblingViolation?_eq (parent : Node) (cs : List Node) :
    parent.siblingViolation? cs =
      cs.zipIdx.findSome? fun (c, i) => parent.childViolation? c cs[i + 1]? := by
  induction cs with
  | nil => rfl
  | cons c cs ih =>
    rw [siblingViolation?_cons, ih, List.zipIdx_cons', findSome?_cons_eq_or, List.findSome?_map,
      List.head?_eq_getElem?]
    rfl

theorem firstViolation?_eq (n : Node) :
    n.firstViolation? = n.violation?.or (n.children.findSome? firstViolation?) := by
  rw [firstViolation?, violation?, List.findSome?_subtype (g := firstViolation?) fun _ _ => rfl,
    List.unattach_attach, siblingViolation?_eq]
  split
  · rfl
  · rfl

/-- One step of the check: when a node is visited, either its violation is the first one to be
found, or its children join those that are still to be visited. -/
theorem findSome?_firstViolation?_cons (n : Node) (pending : List Node) :
    (n :: pending).findSome? firstViolation? =
      n.violation?.or ((n.children ++ pending).findSome? firstViolation?) := by
  rw [findSome?_cons_eq_or, firstViolation?_eq, List.findSome?_append, Option.or_assoc]

theorem findSome?_violation?_toList (pending : List Node) :
    (⟨fun _ => true, pending⟩ : Walk).toList.findSome? violation? =
      pending.findSome? firstViolation? := by
  -- Every step leaves fewer nodes to visit, below and among those that are pending.
  induction hk : (⟨fun _ => true, pending⟩ : Walk).remaining using Nat.strongRecOn
      generalizing pending with
  | ind k ih =>
    cases pending with
    | nil => rw [Walk.toList_nil, List.findSome?_nil, List.findSome?_nil]
    | cons n rest =>
      have hlt := Walk.remaining_next? (w := ⟨fun _ => true, n :: rest⟩) rfl
      rw [hk] at hlt
      rw [Walk.toList_cons, findSome?_cons_eq_or, ih _ hlt _ rfl, findSome?_firstViolation?_cons,
        List.filter_true]

/-- The check reports the violation that the recursion comes to first, and none if there is none. -/
theorem spanViolation?_eq_firstViolation? (root : Node) :
    root.spanViolation? = root.firstViolation? := by
  calc root.spanViolation?
      = (⟨fun _ => true, [root]⟩ : Walk).toList.findSome? violation? := rfl
    _ = [root].findSome? firstViolation? := findSome?_violation?_toList [root]
    _ = root.firstViolation? := List.findSome?_singleton

end Node

end TreeLint
