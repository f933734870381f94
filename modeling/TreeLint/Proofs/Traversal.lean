import Mathlib.Data.List.Basic
import TreeLint.Syntax.Walk

namespace TreeLint

theorem flatMap_filter {α β : Type} (p : α → Bool) (f : α → List β) (xs : List α) :
    (xs.filter p).flatMap f = xs.flatMap fun x => if p x then f x else [] := by
  induction xs with
  | nil => rfl
  | cons x xs ih =>
    rw [List.flatMap_cons, ← ih, List.filter_cons]
    cases p x with
    | false => rfl
    | true => rfl

theorem findSome?_congr {α β : Type} {xs : List α} {f g : α → Option β}
    (h : ∀ x ∈ xs, f x = g x) : xs.findSome? f = xs.findSome? g := by
  induction xs with
  | nil => rfl
  | cons x xs ih =>
    obtain ⟨hx, hxs⟩ := List.forall_mem_cons.1 h
    rw [List.findSome?_cons, List.findSome?_cons, hx, ih hxs]

namespace Node

variable {k m n : Node} {P Q : Node → Prop}

theorem mem_preorder : m ∈ n.preorder ↔ m = n ∨ ∃ c ∈ n.children, m ∈ c.preorder := by
  rw [preorder_eq, List.mem_cons, List.mem_flatMap]

theorem mem_preorder_of_child {c : Node} (hc : c ∈ n.children) (hm : m ∈ c.preorder) :
    m ∈ n.preorder :=
  mem_preorder.2 (.inr ⟨c, hc, hm⟩)

theorem mem_preorder_trans (hk : k ∈ m.preorder) (hm : m ∈ n.preorder) : k ∈ n.preorder := by
  induction n using induction_children with
  | h n ih =>
    rcases mem_preorder.1 hm with rfl | ⟨c, hc, hmc⟩
    · exact hk
    · exact mem_preorder_of_child hc (ih c hc hmc)

/-- A property holds at a node and at all nodes below it. -/
def Everywhere (P : Node → Prop) (n : Node) : Prop := ∀ m ∈ n.preorder, P m

instance [DecidablePred P] : DecidablePred (Everywhere P) := fun n =>
  inferInstanceAs (Decidable (∀ m ∈ n.preorder, P m))

theorem everywhere_iff : n.Everywhere P ↔ P n ∧ ∀ c ∈ n.children, c.Everywhere P := by
  constructor
  · intro h
    exact ⟨h n n.self_mem_preorder, fun c hc m hm => h m (mem_preorder_of_child hc hm)⟩
  · rintro ⟨hn, hc⟩ m hm
    rcases mem_preorder.1 hm with rfl | ⟨c, hcn, hmc⟩
    · exact hn
    · exact hc c hcn m hmc

theorem everywhere_mk {span : Span} {shape : Shape Node} :
    (⟨span, shape⟩ : Node).Everywhere P ↔
      P ⟨span, shape⟩ ∧ ∀ c ∈ shape.children, c.Everywhere P :=
  everywhere_iff

theorem Everywhere.self (h : n.Everywhere P) : P n := (everywhere_iff.1 h).1

theorem Everywhere.child {c : Node} (h : n.Everywhere P) (hc : c ∈ n.children) :
    c.Everywhere P :=
  (everywhere_iff.1 h).2 c hc

theorem Everywhere.below (h : n.Everywhere P) (hm : m ∈ n.preorder) : m.Everywhere P :=
  fun k hk => h k (mem_preorder_trans hk hm)

theorem Everywhere.imp (hPQ : ∀ m, P m → Q m) (h : n.Everywhere P) : n.Everywhere Q :=
  fun m hm => hPQ m (h m hm)

/-- Every child lies within its parent. -/
def Contained (n : Node) : Prop :=
  n.Everywhere fun m => ∀ c ∈ m.children, m.span.contains c.span

instance : DecidablePred Contained := fun n =>
  inferInstanceAs (Decidable (n.Everywhere fun m => ∀ c ∈ m.children, m.span.contains c.span))

theorem Contained.child {c : Node} (h : n.Contained) (hc : c ∈ n.children) : c.Contained :=
  Everywhere.child h hc

theorem Contained.within (h : n.Contained) (hm : m ∈ n.preorder) : n.span.contains m.span := by
  induction n using induction_children with
  | h n ih =>
    rcases mem_preorder.1 hm with rfl | ⟨c, hc, hmc⟩
    · exact Span.contains_self _
    · exact Span.contains_trans (h.self c hc) (ih c hc (h.child hc) hmc)

end Node

namespace Walk

variable {enters : Node → Bool}

theorem toList_nil : (⟨enters, []⟩ : Walk).toList = [] := by
  rw [toList]
  rfl

theorem toList_cons (n : Node) (ns : List Node) :
    (⟨enters, n :: ns⟩ : Walk).toList =
      n :: (⟨enters, n.children.filter enters ++ ns⟩ : Walk).toList := by
  rw [toList]
  rfl

theorem toList_append (ms ns : List Node) :
    (⟨enters, ms ++ ns⟩ : Walk).toList =
      (⟨enters, ms⟩ : Walk).toList ++ (⟨enters, ns⟩ : Walk).toList := by
  -- A visited node leaves its children, so what shrinks is the number of nodes still to come.
  induction hk : (⟨enters, ms⟩ : Walk).remaining using Nat.strongRecOn generalizing ms with
  | ind k ih =>
    cases ms with
    | nil => rw [toList_nil, List.nil_append, List.nil_append]
    | cons m ms =>
      have hlt := remaining_next? (w := ⟨enters, m :: ms⟩) rfl
      rw [hk] at hlt
      rw [List.cons_append, toList_cons, toList_cons, ← List.append_assoc, ih _ hlt _ rfl,
        List.cons_append]

theorem toList_singleton (n : Node) :
    (⟨enters, [n]⟩ : Walk).toList =
      n :: (n.children.filter enters).flatMap fun c => (⟨enters, [c]⟩ : Walk).toList := by
  have hsplit (ns : List Node) : (⟨enters, ns⟩ : Walk).toList =
      ns.flatMap fun c => (⟨enters, [c]⟩ : Walk).toList := by
    induction ns with
    | nil => exact toList_nil
    | cons c cs ih => rw [List.flatMap_cons, ← ih, ← toList_append, List.singleton_append]
  rw [toList_cons, List.append_nil, hsplit]

theorem mem_preorder_of_mem_toList {m n : Node} (h : m ∈ (⟨enters, [n]⟩ : Walk).toList) :
    m ∈ n.preorder := by
  induction n using Node.induction_children with
  | h n ih =>
    rw [toList_singleton, List.mem_cons, List.mem_flatMap] at h
    rcases h with rfl | ⟨c, hc, hm⟩
    · exact Node.self_mem_preorder m
    · have hcn := List.mem_of_mem_filter hc
      exact Node.mem_preorder_of_child hcn (ih c hcn hm)

theorem toList_ofNode (root : Node) : (ofNode root).toList = root.preorder := by
  induction root using Node.induction_children with
  | h n ih =>
    rw [ofNode, toList_singleton, Node.preorder_eq, List.filter_true]
    congr 1
    exact List.flatMap_congr ih

end Walk

namespace Node

/-- In a tree whose children lie within their parents, no node with the span is passed by. -/
theorem Contained.findSpan?_eq {root : Node} (h : root.Contained) (span : Span) (kind : Kind) :
    root.findSpan? span kind = root.preorder.find? fun n => n.span == span && n.kind == kind := by
  rw [findSpan?, Walk.around]
  induction root using induction_children with
  | h n ih =>
    rw [Walk.toList_singleton, preorder_eq, List.find?_cons, List.find?_cons, flatMap_filter,
      List.find?_flatMap, List.find?_flatMap]
    cases n.span == span && n.kind == kind with
    | true => rfl
    | false =>
      apply findSome?_congr
      intro c hc
      split
      · exact ih c hc (h.child hc)
      · -- The search does not enter the child, and no node below it has the span.
        rename_i hspan
        symm
        apply List.find?_eq_none.2
        intro m hm hmatch
        apply hspan
        rw [Bool.and_eq_true, beq_iff_eq] at hmatch
        exact hmatch.1 ▸ (h.child hc).within hm

end Node

end TreeLint
