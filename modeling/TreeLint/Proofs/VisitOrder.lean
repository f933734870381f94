import Mathlib.Data.List.Nodup
import TreeLint.Proofs.FirstOccurrence

namespace TreeLint

namespace Walk

variable {n : Node} {ms ns : List Node} {w w' w'' : Walk}

/-- Steps from the first walk hand out the nodes one after another and lead to the second walk. -/
inductive Visits : Walk → List Node → Walk → Prop where
  | refl (w : Walk) : Visits w [] w
  | next {w w' w'' : Walk} {n : Node} {ns : List Node} (h : w.next? = some (n, w'))
      (hrest : Visits w' ns w'') : Visits w (n :: ns) w''

/-- Steps hand out the nodes one after another, and there is no step after the last of them. -/
def Exhausts (w : Walk) (ns : List Node) : Prop := ∃ w', w.Visits ns w' ∧ w'.next? = none

theorem toList_of_next?_eq_none (h : w.next? = none) : w.toList = [] := by
  obtain ⟨enters, pending⟩ := w
  cases pending with
  | nil => exact toList_nil
  | cons n rest => cases h

theorem toList_of_next?_eq_some (h : w.next? = some (n, w')) : w.toList = n :: w'.toList := by
  obtain ⟨enters, pending⟩ := w
  cases pending with
  | nil => cases h
  | cons n rest =>
    cases h
    exact toList_cons n rest

theorem Visits.toList_eq (h : w.Visits ns w') : w.toList = ns ++ w'.toList := by
  induction h with
  | refl w => rfl
  | next h _ ih => rw [toList_of_next?_eq_some h, ih, List.cons_append]

theorem exhausts_toList (w : Walk) : w.Exhausts w.toList := by
  induction hk : w.remaining using Nat.strongRecOn generalizing w with
  | ind k ih =>
    cases h : w.next? with
    | none =>
      rw [toList_of_next?_eq_none h]
      exact ⟨w, .refl w, h⟩
    | some step =>
      obtain ⟨n, w'⟩ := step
      have hlt : w'.remaining < k := hk ▸ remaining_next? h
      obtain ⟨w'', hvisits, hend⟩ := ih w'.remaining hlt w' rfl
      rw [toList_of_next?_eq_some h]
      exact ⟨w'', .next h hvisits, hend⟩

theorem exhausts_iff : w.Exhausts ns ↔ ns = w.toList := by
  constructor
  · rintro ⟨w', hvisits, hend⟩
    rw [hvisits.toList_eq, toList_of_next?_eq_none hend, List.append_nil]
  · rintro rfl
    exact w.exhausts_toList

/-- The walk passes by no child. -/
def EntersAll (w : Walk) : Prop := w.enters = fun _ => true

theorem EntersAll.of_next? (hw : w.EntersAll) (h : w.next? = some (n, w')) :
    w'.EntersAll ∧ ∃ rest, w.pending = n :: rest ∧ w'.pending = n.children ++ rest := by
  obtain ⟨enters, pending⟩ := w
  cases hw
  cases pending with
  | nil => cases h
  | cons n rest =>
    cases h
    refine ⟨rfl, rest, rfl, ?_⟩
    rw [List.filter_true]

theorem EntersAll.remaining_eq (hw : w.EntersAll) (h : w.next? = some (n, w')) :
    w.remaining = 1 + w'.remaining := by
  obtain ⟨-, rest, hpending, hpending'⟩ := hw.of_next? h
  rw [remaining, remaining, hpending, hpending', List.flatMap_cons, List.flatMap_append,
    n.preorder_eq, List.cons_append, List.length_cons, Nat.add_comm]

theorem EntersAll.of_visits (hw : w.EntersAll) (h : w.Visits ns w') :
    w'.EntersAll ∧ w.remaining = ns.length + w'.remaining := by
  induction h with
  | refl w => exact ⟨hw, (Nat.zero_add _).symm⟩
  | next h _ ih =>
    obtain ⟨hend, hremaining⟩ := ih (hw.of_next? h).1
    refine ⟨hend, ?_⟩
    rw [hw.remaining_eq h, hremaining, List.length_cons]
    omega

/-- Still to be visited are the trees of the nodes on the stack, from its top to its bottom. -/
theorem EntersAll.toList_eq (hw : w.EntersAll) : w.toList = w.pending.flatMap Node.preorder := by
  obtain ⟨enters, pending⟩ := w
  cases hw
  induction pending with
  | nil => exact toList_nil
  | cons n rest ih =>
    rw [← List.singleton_append, toList_append, ih, List.flatMap_append, List.flatMap_singleton]
    congr 1
    exact toList_ofNode n

theorem entersAll_ofNode (root : Node) : (ofNode root).EntersAll := rfl

theorem remaining_ofNode (root : Node) : (ofNode root).remaining = root.size := by
  rw [remaining, ofNode, List.flatMap_singleton, Node.size]

end Walk

namespace Node

variable {m n : Node} {p q : Path}

theorem mem_places_of_subtree? (h : n.subtree? p = some m) : p ∈ n.places := by
  induction p generalizing n with
  | nil =>
    rw [places_eq]
    exact List.mem_cons_self
  | cons i p ih =>
    rw [subtree?_cons, Option.bind_eq_some_iff] at h
    obtain ⟨c, hc, h⟩ := h
    rw [places_eq]
    apply List.mem_cons_of_mem
    rw [List.mem_flatMap]
    exact ⟨(c, i), List.mem_zipIdx_iff_getElem?.2 hc, List.mem_map_of_mem (ih h)⟩

theorem pairwise_places (n : Node) : n.places.Pairwise fun p q => ¬ q <+: p := by
  induction n using induction_children with
  | h n ih =>
    rw [places_eq, List.pairwise_cons, List.pairwise_flatMap]
    refine ⟨?_, ?_, ?_⟩
    · intro q hq hprefix
      obtain ⟨⟨c, i⟩, -, hq⟩ := List.mem_flatMap.1 hq
      obtain ⟨q', -, rfl⟩ := List.mem_map.1 hq
      cases List.prefix_nil.1 hprefix
    · rintro ⟨c, i⟩ hc
      rw [List.pairwise_map]
      apply (ih c (List.fst_mem_of_mem_zipIdx hc)).imp
      intro p q hpq hprefix
      exact hpq (List.cons_prefix_cons.1 hprefix).2
    · -- Positions below different children part at the first index.
      have hindices : (n.children.zipIdx.map Prod.snd).Nodup := by
        rw [List.zipIdx_map_snd]
        exact List.nodup_range'
      rw [List.Nodup, List.pairwise_map] at hindices
      apply hindices.imp
      rintro ⟨c, i⟩ ⟨d, j⟩ hij p hp q hq hprefix
      obtain ⟨p', -, rfl⟩ := List.mem_map.1 hp
      obtain ⟨q', -, rfl⟩ := List.mem_map.1 hq
      exact hij (List.cons_prefix_cons.1 hprefix).1.symm

theorem nodup_places (n : Node) : n.places.Nodup := by
  apply (pairwise_places n).imp
  rintro p q hpq rfl
  exact hpq (List.prefix_refl p)

end Node

namespace Walk

/-- A walk from the root hands out the tree in pre-order and then stops. At any moment on the way it
has as many nodes before it as the tree has in all less those it has visited, and they are the trees
of the nodes on its stack, one behind the other. The nodes that it hands out stand at the positions
of the tree, at each position once, and no position comes after one below it. -/
theorem exhausts_preorder (root : Node) :
    root.preorder = root :: root.children.flatMap Node.preorder ∧
    (∀ ns, (ofNode root).Exhausts ns ↔ ns = root.preorder) ∧
    (∀ ns w, (ofNode root).Visits ns w →
      ns.length + w.remaining = root.size ∧
      ∀ ms, w.Exhausts ms ↔ ms = w.pending.flatMap Node.preorder) ∧
    root.preorder.map some = root.places.map root.subtree? ∧
    (∀ p m, root.subtree? p = some m → root.places.count p = 1) ∧
    root.places.Pairwise fun p q => ¬ q <+: p := by
  refine ⟨root.preorder_eq, ?_, ?_, (Node.map_subtree?_places root).symm, ?_, root.pairwise_places⟩
  · intro ns
    rw [exhausts_iff, toList_ofNode]
  · intro ns w hvisits
    obtain ⟨hw, hremaining⟩ := (entersAll_ofNode root).of_visits hvisits
    rw [remaining_ofNode] at hremaining
    refine ⟨hremaining.symm, fun ms => ?_⟩
    rw [exhausts_iff, hw.toList_eq]
  · intro p m hp
    exact List.count_eq_one_of_mem root.nodup_places (Node.mem_places_of_subtree? hp)

theorem exhausts_preorder_chained :
    let a : Node := ⟨⟨0, 1⟩, .identifier "a"⟩
    let b : Node := ⟨⟨5, 6⟩, .identifier "b"⟩
    let c : Node := ⟨⟨10, 11⟩, .identifier "c"⟩
    let inner : Node := ⟨⟨0, 6⟩, .binary .equals a b⟩
    let outer : Node := ⟨⟨0, 11⟩, .binary .equals inner c⟩
    let halfway : Walk := ⟨fun _ => true, [a, b, c]⟩
    (ofNode outer).Visits [outer, inner] halfway ∧ halfway.Exhausts [a, b, c] ∧
      outer.subtree? [0, 1] = some b ∧ outer.places.count [0, 1] = 1 := by
  intro a b c inner outer halfway
  have hvisits : (ofNode outer).Visits [outer, inner] halfway := .next rfl (.next rfl (.refl _))
  have hb : outer.subtree? [0, 1] = some b := rfl
  obtain ⟨-, -, hway, -, honce, -⟩ := exhausts_preorder outer
  obtain ⟨-, hrest⟩ := hway _ _ hvisits
  have hleaves : [a, b, c] = halfway.pending.flatMap Node.preorder := by decide +kernel
  exact ⟨hvisits, (hrest _).2 hleaves, hb, honce _ _ hb⟩

end Walk

end TreeLint
