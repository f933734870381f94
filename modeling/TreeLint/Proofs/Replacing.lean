import Mathlib.Logic.Function.Basic
import TreeLint.Proofs.Location

namespace TreeLint

namespace Shape

variable {α β : Type}

theorem mapIdx_congr {f g : Nat → α → β} {s : Shape α}
    (h : ∀ i a, s.children[i]? = some a → f i a = g i a) : s.mapIdx f = s.mapIdx g := by
  apply eq_of_form_eq
  · rw [form_mapIdx, form_mapIdx]
  · rw [children_mapIdx, children_mapIdx]
    apply List.ext_getElem?
    intro i
    rw [List.getElem?_mapIdx, List.getElem?_mapIdx]
    cases ha : s.children[i]? with
    | none => rfl
    | some a => exact congrArg some (h i a ha)

end Shape

/-- New subtrees for some positions of a tree. -/
abbrev Edits := Path → Option Node

namespace Edits

/-- The edits below the child with the index. -/
def below (edits : Edits) (i : Nat) : Edits := fun p => edits (i :: p)

/-- The edits with a new subtree for one position more. -/
def put (edits : Edits) (p : Path) (new : Node) : Edits := Function.update edits p (some new)

variable {edits : Edits} {i j : Nat} {p : Path} {new : Node}

theorem put_self : edits.put p new p = some new := by
  rw [put, Function.update_self]

theorem put_of_ne {q : Path} (h : q ≠ p) : edits.put p new q = edits q := by
  rw [put, Function.update_of_ne h]

theorem eq_of_put_eq_some {q : Path} {new' : Node}
    (h : put (fun _ => none) p new q = some new') : q = p ∧ new = new' := by
  by_cases hq : q = p
  · subst hq
    rw [put_self] at h
    exact ⟨rfl, Option.some.inj h⟩
  · rw [put_of_ne hq] at h
    cases h

theorem below_put_self : (edits.put (i :: p) new).below i = (edits.below i).put p new := by
  funext q
  rw [below]
  by_cases hq : q = p
  · rw [hq, put_self, put_self]
  · rw [put_of_ne hq, put_of_ne fun h => hq (List.cons.inj h).2, below]

theorem below_put_of_ne (h : j ≠ i) : (edits.put (i :: p) new).below j = edits.below j := by
  funext q
  rw [below, below, put_of_ne fun he => h (List.cons.inj he).1]

end Edits

namespace Node

variable {span : Span} {kind : Kind} {c m n new : Node} {p : Path} {i : Nat} {edits : Edits}

/-- A node for which there may be a new subtree, and which is else rebuilt from its children. -/
def rebuilt (span : Span) (shape : Shape (Edits → Node)) (edits : Edits) : Node :=
  match edits [] with
  | some new => new
  | none => ⟨span, shape.mapIdx fun i child => child (edits.below i)⟩

/-- The tree with the new subtrees put in, all at once. Edits inside a subtree that is replaced have
no effect. -/
def replacing (edits : Edits) (n : Node) : Node := n.fold rebuilt edits

theorem replacing_of_edit (h : edits [] = some new) : n.replacing edits = new := by
  rw [replacing, fold_eq, rebuilt, h]

theorem replacing_of_none (h : edits [] = none) : n.replacing edits =
    ⟨n.span, n.shape.mapIdx fun i c => c.replacing (edits.below i)⟩ := by
  rw [replacing, fold_eq, rebuilt, h, Shape.map, Shape.mapIdx_mapIdx]
  rfl

theorem children_replacing (h : edits [] = none) : (n.replacing edits).children =
    n.children.mapIdx fun i c => c.replacing (edits.below i) := by
  rw [replacing_of_none h]
  exact Shape.children_mapIdx _ _

theorem span_replacing (h : edits [] = none) : (n.replacing edits).span = n.span := by
  rw [replacing_of_none h]

theorem kind_replacing (h : edits [] = none) : (n.replacing edits).kind = n.kind := by
  rw [replacing_of_none h]
  exact Shape.kind_mapIdx _ _

/-- A relation that holds between old and new subtrees, and between nodes that differ only in
related children, holds between the whole trees. -/
theorem replacing_induction {Q : Node → Node → Prop}
    (hinner : ∀ (n : Node) (g : Nat → Node → Node),
      (∀ i c, n.children[i]? = some c → Q c (g i c)) → Q n ⟨n.span, n.shape.mapIdx g⟩)
    (hedits : ∀ p new m, edits p = some new → n.subtree? p = some m → Q m new) :
    Q n (n.replacing edits) := by
  induction n using induction_children generalizing edits with
  | h n ih =>
    cases h : edits [] with
    | some new =>
      rw [replacing_of_edit h]
      exact hedits [] new n h rfl
    | none =>
      rw [replacing_of_none h]
      apply hinner
      intro i c hc
      apply ih c (List.mem_of_getElem? hc)
      intro p new m hnew hm
      apply hedits (i :: p) new m hnew
      rw [subtree?_cons, hc]
      exact hm

theorem everywhere_mapIdx {P : Node → Prop} {g : Nat → Node → Node}
    (hself : P ⟨n.span, n.shape.mapIdx g⟩)
    (hchildren : ∀ i c, n.children[i]? = some c → (g i c).Everywhere P) :
    (⟨n.span, n.shape.mapIdx g⟩ : Node).Everywhere P := by
  refine everywhere_mk.2 ⟨hself, fun d hd => ?_⟩
  rw [Shape.children_mapIdx] at hd
  obtain ⟨i, hi, rfl⟩ := List.mem_mapIdx.1 hd
  exact hchildren i _ (List.getElem?_eq_getElem hi)

/-- What holds everywhere in the old tree holds everywhere in the new one, if a node keeps it when
its children are related to the old ones, and new subtrees are related to the old ones and keep it.
-/
theorem Everywhere.replacing {P : Node → Prop} {R : Node → Node → Prop} (h : n.Everywhere P)
    (hrelated : ∀ (n : Node) (g : Nat → Node → Node),
      (∀ i c, n.children[i]? = some c → R c (g i c)) → R n ⟨n.span, n.shape.mapIdx g⟩)
    (hkeeps : ∀ (n : Node) (g : Nat → Node → Node),
      (∀ i c, n.children[i]? = some c → R c (g i c)) → P n → P ⟨n.span, n.shape.mapIdx g⟩)
    (hedits : ∀ p new m, edits p = some new → n.subtree? p = some m →
      R m new ∧ (m.Everywhere P → new.Everywhere P)) :
    (n.replacing edits).Everywhere P := by
  refine (replacing_induction (Q := fun m m' => R m m' ∧ (m.Everywhere P → m'.Everywhere P))
    (fun n g hg => ?_) hedits).2 h
  have hchildren (i : Nat) (c : Node) (hc : n.children[i]? = some c) : R c (g i c) := (hg i c hc).1
  refine ⟨hrelated n g hchildren, fun hn => ?_⟩
  exact everywhere_mapIdx (hkeeps n g hchildren hn.self) fun i c hc =>
    (hg i c hc).2 (hn.child (List.mem_of_getElem? hc))

theorem replacing_eq_self (h : ∀ p, edits p = none) : n.replacing edits = n := by
  refine Eq.symm (replacing_induction (Q := Eq) ?_ ?_)
  · intro n g hg
    apply ext_form
    · rfl
    · exact (Shape.form_mapIdx g n.shape).symm
    · apply List.ext_getElem?
      intro i
      change n.children[i]? = (n.shape.mapIdx g).children[i]?
      rw [Shape.children_mapIdx, List.getElem?_mapIdx]
      cases hc : n.children[i]? with
      | none => rw [show n.shape.children[i]? = none from hc, Option.map_none]
      | some c => rw [show n.shape.children[i]? = some c from hc, Option.map_some, ← hg i c hc]
  · intro p new m hnew
    rw [h p] at hnew
    cases hnew

/-- At a position with no edit above it stands the new subtree, or the old one with the edits below
it put in. -/
theorem subtree?_replacing (hp : n.subtree? p = some m)
    (hway : ∀ q, q <+: p → q ≠ p → edits q = none) :
    (n.replacing edits).subtree? p = some (m.replacing fun q => edits (p ++ q)) := by
  induction p generalizing n edits with
  | nil =>
    cases hp
    rfl
  | cons i p ih =>
    rw [subtree?_cons, Option.bind_eq_some_iff] at hp
    obtain ⟨c, hc, hp⟩ := hp
    have hself : edits [] = none := hway [] List.nil_prefix (List.cons_ne_nil i p).symm
    rw [subtree?_cons, children_replacing hself, List.getElem?_mapIdx, hc, Option.map_some,
      Option.bind_some]
    apply ih hp
    intro q hq hne
    exact hway (i :: q) (List.cons_prefix_cons.2 ⟨rfl, hq⟩) fun he => hne (List.cons.inj he).2

theorem replace?_replacing (hp : n.subtree? p = some m)
    (hway : ∀ q, q <+: p → q ≠ p → edits q = none) :
    (n.replacing edits).replace? p new = some (n.replacing (edits.put p new)) := by
  induction p generalizing n edits with
  | nil => rw [replace?, replacing_of_edit Edits.put_self]
  | cons i p ih =>
    rw [subtree?_cons, Option.bind_eq_some_iff] at hp
    obtain ⟨c, hc, hp⟩ := hp
    have hself : edits [] = none := hway [] List.nil_prefix (List.cons_ne_nil i p).symm
    have hchild : (c.replacing (edits.below i)).replace? p new =
        some (c.replacing ((edits.below i).put p new)) :=
      ih hp fun q hq hne =>
        hway (i :: q) (List.cons_prefix_cons.2 ⟨rfl, hq⟩) fun he => hne (List.cons.inj he).2
    rw [replace?_cons, children_replacing hself, List.getElem?_mapIdx, hc, Option.map_some,
      Option.bind_some, hchild, Option.bind_some, withChild?, if_pos]
    · rw [replacing_of_none hself,
        replacing_of_none ((Edits.put_of_ne (List.cons_ne_nil i p).symm).trans hself),
        Shape.mapIdx_mapIdx]
      congr 2
      apply Shape.mapIdx_congr
      intro j a ha
      split
      · rename_i hj
        subst hj
        obtain rfl : a = c := Option.some.inj (ha.symm.trans hc)
        rw [Edits.below_put_self]
      · rename_i hj
        rw [Edits.below_put_of_ne hj]
    · rw [children_replacing hself, List.length_mapIdx]
      exact (List.getElem?_eq_some_iff.1 hc).1

theorem replace?_eq_replacing (hp : n.subtree? p = some m) (new : Node) :
    n.replace? p new = some (n.replacing (Edits.put (fun _ => none) p new)) := by
  have h : (n.replacing fun _ => none).replace? p new =
      some (n.replacing (Edits.put (fun _ => none) p new)) :=
    replace?_replacing hp fun _ _ _ => rfl
  rwa [replacing_eq_self fun _ => rfl] at h

theorem eq_replacing_of_replace? {t : Node} (hp : n.subtree? p = some m)
    (ht : n.replace? p new = some t) : t = n.replacing (Edits.put (fun _ => none) p new) := by
  rw [replace?_eq_replacing hp] at ht
  exact (Option.some.inj ht).symm

/-- The new subtrees keep the spans of the old ones, and none of them contains the span. The tree
itself is not replaced. -/
structure Clear (span : Span) (edits : Edits) (n : Node) : Prop where
  root : edits [] = none
  keeps : ∀ p new m, edits p = some new → n.subtree? p = some m →
    new.span = m.span ∧ ¬ m.span.contains span

namespace Clear

theorem child (h : Clear span edits n) (hi : n.children[i]? = some c)
    (hc : c.span.contains span) : Clear span (edits.below i) c := by
  have hsubtree (p : Path) : n.subtree? (i :: p) = c.subtree? p := by
    rw [subtree?_cons, hi, Option.bind_some]
  refine ⟨?_, fun p new m hnew hm => h.keeps (i :: p) new m hnew ((hsubtree p).trans hm)⟩
  cases hnew : edits.below i [] with
  | none => rfl
  | some new => exact absurd hc (h.keeps [i] new c hnew (hsubtree [])).2

theorem span_child (h : Clear span edits n) (hi : n.children[i]? = some c) :
    (c.replacing (edits.below i)).span = c.span := by
  cases hnew : edits.below i [] with
  | none => exact span_replacing hnew
  | some new =>
    rw [replacing_of_edit hnew]
    refine (h.keeps [i] new c hnew ?_).1
    rw [subtree?_cons, hi]
    rfl

theorem findSpan?_eq_none (h : Clear span edits n) (hn : n.findSpan? span kind = none) :
    (n.replacing edits).findSpan? span kind = none := by
  induction n using induction_children generalizing edits with
  | h n ih =>
    obtain ⟨hself, hchildren⟩ := findSpan?_eq_none_iff.1 hn
    refine findSpan?_eq_none_iff.2 ⟨?_, fun d hd hcontains => ?_⟩
    · rwa [span_replacing h.root, kind_replacing h.root]
    · rw [children_replacing h.root, List.mem_mapIdx] at hd
      obtain ⟨i, hi, rfl⟩ := hd
      have hc : n.children[i]? = some n.children[i] := List.getElem?_eq_getElem hi
      rw [h.span_child hc] at hcontains
      exact ih _ (List.getElem_mem hi) (h.child hc hcontains)
        (hchildren _ (List.getElem_mem hi) hcontains)

end Clear

namespace Located

/-- The search ends at the same position as before. -/
theorem replacing (h : Located span kind n p m) (hclear : Clear span edits n) :
    ∃ d, Located span kind (n.replacing edits) p d := by
  induction h generalizing edits with
  | here h =>
    refine ⟨_, .here ?_⟩
    rwa [span_replacing hclear.root, kind_replacing hclear.root]
  | @child n c m as bs p hn hchildren has hc _ ih =>
    have hi : n.children[as.length]? = some c := by simp [hchildren]
    obtain ⟨d, hd⟩ := ih (hclear.child hi hc)
    have hsplit : (n.replacing edits).children =
        as.mapIdx (fun i a => a.replacing (edits.below i)) ++ c.replacing (edits.below as.length) ::
          bs.mapIdx fun i b => b.replacing (edits.below (i + 1 + as.length)) := by
      rw [children_replacing hclear.root, hchildren, List.mapIdx_append, List.mapIdx_cons,
        Nat.zero_add]
    have hlength : (as.mapIdx fun i a => a.replacing (edits.below i)).length = as.length :=
      List.length_mapIdx
    rw [← hlength]
    refine ⟨d, .child ?_ hsplit ?_ ?_ hd⟩
    · rwa [span_replacing hclear.root, kind_replacing hclear.root]
    · intro a ha hcontains
      obtain ⟨j, hj, rfl⟩ := List.mem_mapIdx.1 ha
      have hja : n.children[j]? = some as[j] := by
        rw [hchildren, List.getElem?_append_left hj, List.getElem?_eq_getElem hj]
      rw [hclear.span_child hja] at hcontains
      exact (hclear.child hja hcontains).findSpan?_eq_none (has _ (List.getElem_mem hj) hcontains)
    · rwa [hclear.span_child hi]

theorem edits_eq_none (h : Located span kind n p m) (hclear : Clear span edits n) {q : Path}
    (hq : q <+: p) : edits q = none := by
  induction h generalizing edits q with
  | here =>
    rw [List.prefix_nil.1 hq]
    exact hclear.root
  | @child n c m as bs p hn hchildren has hc _ ih =>
    cases q with
    | nil => exact hclear.root
    | cons i q =>
      obtain ⟨rfl, hqp⟩ := List.cons_prefix_cons.1 hq
      have hi : n.children[as.length]? = some c := by simp [hchildren]
      exact ih (hclear.child hi hc) hqp

/-- What the search finds is replaced on top of the edits. -/
theorem applyReplacement_replacing {r : Replacement} (h : Located r.span r.kind n p m)
    (hclear : Clear r.span edits n) (hcategory : r.node.category = r.kind.category) :
    (n.replacing edits).applyReplacement r = .ok (n.replacing (edits.put p r.node)) := by
  obtain ⟨d, hd⟩ := h.replacing hclear
  exact hd.applyReplacement hcategory
    (replace?_replacing h.subtree?_eq fun q hq _ => h.edits_eq_none hclear hq)

end Located

end Node

end TreeLint
