import Mathlib.Data.List.Basic
import TreeLint.Syntax.Path

namespace TreeLint

namespace Node

variable {m n c : Node} {f g : Node → Node}

/-- The node with every child changed. -/
def mapChildren (f : Node → Node) (n : Node) : Node := ⟨n.span, n.shape.map f⟩

@[simp]
theorem span_mapChildren (f : Node → Node) (n : Node) : (n.mapChildren f).span = n.span := rfl

@[simp]
theorem kind_mapChildren (f : Node → Node) (n : Node) : (n.mapChildren f).kind = n.kind :=
  Shape.kind_map f n.shape

@[simp]
theorem children_mapChildren (f : Node → Node) (n : Node) :
    (n.mapChildren f).children = n.children.map f :=
  Shape.children_map f n.shape

theorem mapChildren_mapChildren (f g : Node → Node) (n : Node) :
    (n.mapChildren f).mapChildren g = n.mapChildren (g ∘ f) := by
  rw [mapChildren, mapChildren, mapChildren, Shape.map, Shape.map, Shape.mapIdx_mapIdx]
  rfl

theorem mapChildren_congr (h : ∀ c ∈ n.children, f c = g c) :
    n.mapChildren f = n.mapChildren g := by
  apply ext_form
  · rfl
  · simp only [mapChildren, Shape.form_map]
  · rw [children_mapChildren, children_mapChildren]
    exact List.map_congr_left h

theorem mapChildren_eq_self (h : ∀ c ∈ n.children, f c = c) : n.mapChildren f = n := by
  apply ext_form
  · rfl
  · simp only [mapChildren, Shape.form_map]
  · rw [children_mapChildren, List.map_congr_left h, List.map_id']

theorem mapIdx_eq_set {α : Type} (xs : List α) (i : Nat) (a : α) :
    (xs.mapIdx fun j old => if j = i then a else old) = xs.set i a := by
  apply List.ext_getElem?
  intro j
  by_cases hj : j = i
  · subst hj
    rw [List.getElem?_mapIdx, List.getElem?_set_self']
    simp only [↓reduceIte]
    rfl
  · rw [List.getElem?_mapIdx, List.getElem?_set_ne (Ne.symm hj)]
    simp [hj]

theorem withChild?_eq_some {i : Nat} (h : n.withChild? i c = some m) :
    m.span = n.span ∧ m.shape.form = n.shape.form ∧ m.children = n.children.set i c := by
  rw [withChild?] at h
  split at h
  · cases h
    exact ⟨rfl, Shape.form_mapIdx _ _, (Shape.children_mapIdx _ _).trans (mapIdx_eq_set _ _ _)⟩
  · cases h

theorem kind_eq_of_form_eq (h : m.shape.form = n.shape.form) : m.kind = n.kind := by
  rw [kind, kind, ← Shape.kind_form, h, Shape.kind_form]

theorem exists_withChild? {i : Nat} (h : i < n.children.length) (c : Node) :
    ∃ m, n.withChild? i c = some m :=
  ⟨_, if_pos h⟩

theorem withChild?_eq_mapChildren {as bs : List Node} (hn : n.children = as ++ c :: bs)
    (hf : ∀ d ∈ as ++ bs, f d = d) : n.withChild? as.length (f c) = some (n.mapChildren f) := by
  have hlt : as.length < n.children.length := by
    rw [hn, List.length_append, List.length_cons]
    omega
  obtain ⟨m, hm⟩ := exists_withChild? hlt (f c)
  obtain ⟨hspan, hform, hchildren⟩ := withChild?_eq_some hm
  rw [hm]
  congr 1
  apply ext_form
  · exact hspan
  · rw [hform, mapChildren, Shape.form_map]
  · have has : as.map f = as := by
      rw [List.map_congr_left fun d hd => hf d (List.mem_append_left bs hd), List.map_id']
    have hbs : bs.map f = bs := by
      rw [List.map_congr_left fun d hd => hf d (List.mem_append_right as hd), List.map_id']
    rw [hchildren, children_mapChildren, hn, List.map_append, List.map_cons, has, hbs,
      List.set_append_right _ _ (Nat.le_refl _), Nat.sub_self, List.set_cons_zero]

end Node

end TreeLint
