import Mathlib.Data.List.Permutation
import TreeLint.Proofs.Replacing

namespace TreeLint

namespace Span

variable {a b c : Span}

/-- The first span ends where the second one, which is not empty, starts, or before. -/
def Precedes (a b : Span) : Prop := a.stop ≤ b.start ∧ b.start < b.stop

theorem le_trans (hab : a.le b) (hbc : b.le c) : a.le c := by
  simp only [le, Bool.or_eq_true, Bool.and_eq_true, decide_eq_true_eq, beq_iff_eq,
    UInt32.lt_iff_toNat_lt, UInt32.le_iff_toNat_le, ← UInt32.toNat_inj] at *
  omega

theorem le_total (a b : Span) : (a.le b || b.le a) = true := by
  simp only [le, Bool.or_eq_true, Bool.and_eq_true, decide_eq_true_eq, beq_iff_eq,
    UInt32.lt_iff_toNat_lt, UInt32.le_iff_toNat_le, ← UInt32.toNat_inj]
  omega

theorem le_of_stop_le_start (h : a.stop ≤ b.start) (ha : a.start ≤ a.stop) (hb : b.start ≤ b.stop) :
    a.le b := by
  simp only [Span.le, Bool.or_eq_true, Bool.and_eq_true, decide_eq_true_eq, beq_iff_eq,
    UInt32.lt_iff_toNat_lt, UInt32.le_iff_toNat_le, ← UInt32.toNat_inj] at *
  omega

theorem precedes_of_le (h : a.le b) (ha : a.start < a.stop) (hb : b.start < b.stop)
    (hab : ¬ a.overlaps b) : a.Precedes b := by
  refine ⟨?_, hb⟩
  rw [overlaps_iff] at hab
  simp only [Span.le, Bool.or_eq_true, Bool.and_eq_true, decide_eq_true_eq, beq_iff_eq, ne_eq,
    UInt32.lt_iff_toNat_lt, UInt32.le_iff_toNat_le, ← UInt32.toNat_inj] at *
  omega

theorem overlaps_self (h : a.start < a.stop) : a.overlaps a :=
  overlaps_of_contains (contains_self a) (contains_self a) h

end Span

/-- The replacement is meant for a node with text, and its own node fits there. -/
structure Replacement.FillsSlot (r : Replacement) : Prop where
  nonempty : r.span.start < r.span.stop
  span_eq : r.node.span = r.span
  category_eq : r.node.category = r.kind.category

namespace Node

variable {root m new : Node} {r s : Replacement} {rs ss done todo : List Replacement} {p q : Path}

theorem overlapOffset?_eq_none_iff :
    overlapOffset? rs = none ↔ rs.IsChain fun r s => r.span.stop ≤ s.span.start := by
  induction rs with
  | nil => exact iff_of_true rfl .nil
  | cons r rs ih =>
    cases rs with
    | nil => exact iff_of_true rfl (.singleton r)
    | cons s rs =>
      rw [overlapOffset?, List.isChain_cons_cons, ← ih]
      split
      · rename_i hinside
        exact iff_of_false (Option.some_ne_none _) fun h => UInt32.not_lt.2 h.1 hinside
      · rename_i hbehind
        exact (and_iff_right (UInt32.not_lt.1 hbehind)).symm

theorem pairwise_le_mergeSort (rs : List Replacement) :
    (rs.mergeSort fun r s => r.span.le s.span).Pairwise fun r s => r.span.le s.span := by
  apply List.pairwise_mergeSort
  · intro _ _ _
    exact Span.le_trans
  · intro r s
    exact Span.le_total r.span s.span

/-- Replacements that lie one behind the other are applied in their order. -/
theorem applyReplacements_eq_foldlM (hordered : ∀ r ∈ rs, r.span.start ≤ r.span.stop)
    (h : rs.Pairwise fun r s => r.span.stop ≤ s.span.start) (root : Node) :
    root.applyReplacements rs = rs.foldlM applyReplacement root := by
  have hsorted : rs.Pairwise fun r s => r.span.le s.span := by
    apply h.imp_of_mem
    intro r s hr hs hrs
    exact Span.le_of_stop_le_start hrs (hordered r hr) (hordered s hs)
  rw [applyReplacements, List.mergeSort_of_pairwise hsorted, overlapOffset?_eq_none_iff.2 h.isChain]

/-- The batch fits the tree: the spans hold text and do not overlap, each new node fits its slot,
and what would take the place of the whole tree lies within it. -/
structure Admits (root : Node) (rs : List Replacement) : Prop where
  fills : ∀ r ∈ rs, r.FillsSlot
  apart : rs.Pairwise fun r s => ¬ r.span.overlaps s.span
  root : ∀ r ∈ rs, r.span = root.span → r.kind = root.kind →
    ∀ c ∈ r.node.children, r.span.contains c.span

/-- The new subtrees of a batch, at the places of their slots in the tree. -/
def editsOf (root : Node) (rs : List Replacement) : Edits := fun p =>
  (rs.find? fun r => root.placeOf? r.span r.kind == some p).map Replacement.node

theorem editsOf_eq_some (h : root.editsOf rs p = some new) :
    ∃ r ∈ rs, r.node = new ∧ ∃ m, Located r.span r.kind root p m := by
  obtain ⟨r, hr, rfl⟩ := Option.map_eq_some_iff.1 h
  have hp := List.find?_some hr
  rw [beq_iff_eq] at hp
  exact ⟨r, List.mem_of_find?_eq_some hr, rfl, placeOf?_eq_some.1 hp⟩

theorem editsOf_cons (h : Located r.span r.kind root p m) :
    root.editsOf (r :: rs) = (root.editsOf rs).put p r.node := by
  have hplace : root.placeOf? r.span r.kind = some p := placeOf?_eq_some.2 ⟨m, h⟩
  funext q
  by_cases hq : q = p
  · rw [hq, Edits.put_self, editsOf, List.find?_cons_of_pos (by rw [hplace, beq_iff_eq])]
    rfl
  · have hne : (root.placeOf? r.span r.kind == some q) = false := by
      rw [hplace, beq_eq_false_iff_ne]
      exact fun h => hq (Option.some.inj h).symm
    rw [Edits.put_of_ne hq, editsOf, List.find?_cons, hne]
    rfl

namespace Admits

theorem perm (h : root.Admits rs) (hp : rs.Perm ss) : root.Admits ss := by
  refine ⟨fun r hr => h.fills r (hp.mem_iff.2 hr), ?_, fun r hr => h.root r (hp.mem_iff.2 hr)⟩
  exact (hp.pairwise_iff fun hrs hsr => hrs (Span.overlaps_comm.1 hsr)).1 h.apart

theorem eq_of_overlaps (h : root.Admits rs) (hr : r ∈ rs) (hs : s ∈ rs)
    (hrs : r.span.overlaps s.span) : r = s := by
  by_contra hne
  have : Std.Symm fun r s : Replacement => ¬ r.span.overlaps s.span :=
    ⟨fun _ _ hab hba => hab (Span.overlaps_comm.1 hba)⟩
  exact h.apart.forall hr hs hne hrs

theorem editsOf_eq (h : root.Admits rs) (hr : r ∈ rs) (hm : Located r.span r.kind root p m) :
    root.editsOf rs p = some r.node := by
  have hplace : root.placeOf? r.span r.kind = some p := placeOf?_eq_some.2 ⟨m, hm⟩
  have hsome : (rs.find? fun s => root.placeOf? s.span s.kind == some p).isSome :=
    List.find?_isSome.2 ⟨r, hr, by rw [hplace, beq_iff_eq]⟩
  obtain ⟨s, hs⟩ := Option.isSome_iff_exists.1 hsome
  have hedit : root.editsOf rs p = some s.node := congrArg (Option.map Replacement.node) hs
  -- Both spans are the span of the node at the place.
  have hsplace := List.find?_some hs
  rw [beq_iff_eq] at hsplace
  obtain ⟨d, hd⟩ := placeOf?_eq_some.1 hsplace
  obtain rfl : m = d := Option.some.inj (hm.subtree?_eq.symm.trans hd.subtree?_eq)
  have hspan : r.span = s.span := hm.span_and_kind.1.symm.trans hd.span_and_kind.1
  have hrs : r.span.overlaps s.span := hspan ▸ Span.overlaps_self (h.fills r hr).nonempty
  rw [h.eq_of_overlaps hr (List.mem_of_find?_eq_some hs) hrs, hedit]

theorem editsOf_perm (h : root.Admits rs) (hp : rs.Perm ss) : root.editsOf rs = root.editsOf ss := by
  funext q
  apply Option.ext
  intro new
  constructor
  · intro hnew
    obtain ⟨r, hr, rfl, m, hm⟩ := editsOf_eq_some hnew
    exact (h.perm hp).editsOf_eq (hp.mem_iff.1 hr) hm
  · intro hnew
    obtain ⟨r, hr, rfl, m, hm⟩ := editsOf_eq_some hnew
    exact h.editsOf_eq (hp.mem_iff.2 hr) hm

theorem apart_of_mem (h : root.Admits (r :: done)) (hs : s ∈ done) : ¬ s.span.contains r.span := by
  intro hcontains
  have hnonempty := (h.fills r List.mem_cons_self).nonempty
  exact (List.pairwise_cons.1 h.apart).1 s hs
    (Span.overlaps_of_contains (Span.contains_self r.span) hcontains hnonempty)

theorem clear (h : root.Admits (r :: done)) (hroot : root.editsOf done [] = none) :
    Clear r.span (root.editsOf done) root := by
  refine ⟨hroot, fun p new m hnew hm => ?_⟩
  obtain ⟨s, hs, rfl, d, hd⟩ := editsOf_eq_some hnew
  obtain rfl : m = d := Option.some.inj (hm.symm.trans hd.subtree?_eq)
  rw [hd.span_and_kind.1]
  exact ⟨(h.fills s (List.mem_cons_of_mem r hs)).span_eq, h.apart_of_mem hs⟩

/-- Once the whole tree is replaced, no other replacement of the batch finds a node, neither in the
first tree nor in the new one. -/
theorem findSpan?_of_root_replaced (h : root.Admits (r :: done)) (hroot : root.Contained)
    (hnew : root.editsOf done [] = some new) :
    root.findSpan? r.span r.kind = none ∧ new.findSpan? r.span r.kind = none := by
  obtain ⟨s, hs, rfl, d, hd⟩ := editsOf_eq_some hnew
  obtain rfl : root = d := Option.some.inj hd.subtree?_eq
  obtain ⟨hspan, hkind⟩ := hd.span_and_kind
  have happart := h.apart_of_mem hs
  have hfills := h.fills s (List.mem_cons_of_mem r hs)
  constructor
  · cases hm : root.findSpan? r.span r.kind with
    | none => rfl
    | some m =>
      obtain ⟨hmem, hmspan, -⟩ := of_findSpan?_eq_some hm
      refine absurd ?_ happart
      rw [← hspan, ← hmspan]
      exact hroot.within hmem
  · refine findSpan?_eq_none_iff.2 ⟨?_, fun c hc hcontains => ?_⟩
    · rintro ⟨hr, -⟩
      rw [hfills.span_eq] at hr
      exact happart (hr ▸ Span.contains_self _)
    · have hinside := h.root s (List.mem_cons_of_mem r hs) hspan.symm hkind.symm c hc
      exact absurd (Span.contains_trans hinside hcontains) happart

/-- A step finds its node in the tree with the others replaced if it finds it in the first tree. -/
theorem applyReplacement_of_found (h : root.Admits (r :: done)) (hroot : root.Contained)
    (hm : root.findSpan? r.span r.kind = some m) :
    (root.replacing (root.editsOf done)).applyReplacement r =
      .ok (root.replacing (root.editsOf (r :: done))) := by
  obtain ⟨p, hp⟩ := exists_located hm
  cases hnew : root.editsOf done [] with
  | some new =>
    rw [(h.findSpan?_of_root_replaced hroot hnew).1] at hm
    cases hm
  | none =>
    rw [editsOf_cons hp]
    exact hp.applyReplacement_replacing (h.clear hnew) (h.fills r List.mem_cons_self).category_eq

theorem applyReplacement_of_not_found (h : root.Admits (r :: done)) (hroot : root.Contained)
    (hm : root.findSpan? r.span r.kind = none) :
    (root.replacing (root.editsOf done)).applyReplacement r = .error (.notFound r.kind r.span) := by
  apply applyReplacement_of_findSpan?_eq_none
  cases hnew : root.editsOf done [] with
  | some new =>
    rw [replacing_of_edit hnew]
    exact (h.findSpan?_of_root_replaced hroot hnew).2
  | none => exact (h.clear hnew).findSpan?_eq_none hm

theorem foldlM_applyReplacement (h : root.Admits (todo ++ done)) (hroot : root.Contained) :
    todo.foldlM applyReplacement (root.replacing (root.editsOf done)) =
      match todo.find? fun r => (root.findSpan? r.span r.kind).isNone with
      | some r => .error (.notFound r.kind r.span)
      | none => .ok (root.replacing (root.editsOf (todo ++ done))) := by
  induction todo generalizing done with
  | nil => rfl
  | cons r todo ih =>
    have hperm : (todo ++ r :: done).Perm (r :: todo ++ done) := List.perm_middle
    have hnext : root.Admits (todo ++ r :: done) := h.perm hperm.symm
    have hstep : root.Admits (r :: done) :=
      ⟨fun s hs => hnext.fills s (List.mem_append_right todo hs),
        (List.pairwise_append.1 hnext.apart).2.1,
        fun s hs => hnext.root s (List.mem_append_right todo hs)⟩
    rw [List.foldlM_cons]
    cases hm : root.findSpan? r.span r.kind with
    | some m =>
      rw [hstep.applyReplacement_of_found hroot hm, List.find?_cons_of_neg (by simp [hm]),
        ← hnext.editsOf_perm hperm]
      exact ih hnext
    | none =>
      rw [hstep.applyReplacement_of_not_found hroot hm, List.find?_cons_of_pos (by simp [hm])]
      rfl

theorem pairwise_precedes_mergeSort (h : root.Admits rs) :
    (rs.mergeSort fun r s => r.span.le s.span).Pairwise fun r s => r.span.Precedes s.span := by
  have hadmits := h.perm (List.mergeSort_perm rs fun r s => r.span.le s.span).symm
  refine ((pairwise_le_mergeSort rs).and hadmits.apart).imp_of_mem fun hr hs hrs => ?_
  exact Span.precedes_of_le hrs.1 (hadmits.fills _ hr).nonempty (hadmits.fills _ hs).nonempty hrs.2

theorem applyReplacements_eq (h : root.Admits rs) (hroot : root.Contained) :
    root.applyReplacements rs =
      match (rs.mergeSort fun r s => r.span.le s.span).find? fun r =>
        (root.findSpan? r.span r.kind).isNone with
      | some r => .error (.notFound r.kind r.span)
      | none => .ok (root.replacing (root.editsOf rs)) := by
  have hperm := List.mergeSort_perm rs fun r s => r.span.le s.span
  have hall : root.Admits ((rs.mergeSort fun r s => r.span.le s.span) ++ []) := by
    rw [List.append_nil]
    exact h.perm hperm.symm
  have hfold := hall.foldlM_applyReplacement hroot
  have hnone : root.replacing (root.editsOf []) = root := replacing_eq_self fun _ => rfl
  rw [List.append_nil, hnone] at hfold
  have haccepted : overlapOffset? (rs.mergeSort fun r s => r.span.le s.span) = none :=
    overlapOffset?_eq_none_iff.2 (h.pairwise_precedes_mergeSort.imp fun hrs => hrs.1).isChain
  rw [applyReplacements, haccepted, h.editsOf_perm hperm.symm]
  exact hfold

theorem applyReplacements_of_found (h : root.Admits rs) (hroot : root.Contained)
    (hfound : ∀ r ∈ rs, ∃ m, root.findSpan? r.span r.kind = some m) :
    root.applyReplacements rs = .ok (root.replacing (root.editsOf rs)) := by
  rw [h.applyReplacements_eq hroot, List.find?_eq_none.2]
  intro r hr
  obtain ⟨m, hm⟩ := hfound r (List.mem_mergeSort.1 hr)
  simp [hm]

theorem applyReplacements_of_not_found (h : root.Admits rs) (hroot : root.Contained) (hr : r ∈ rs)
    (hnone : root.findSpan? r.span r.kind = none)
    (hleft : ∀ s ∈ rs, root.findSpan? s.span s.kind = none → r.span.start ≤ s.span.start) :
    root.applyReplacements rs = .error (.notFound r.kind r.span) := by
  have hsome : ((rs.mergeSort fun r s => r.span.le s.span).find? fun r =>
      (root.findSpan? r.span r.kind).isNone).isSome :=
    List.find?_isSome.2 ⟨r, List.mem_mergeSort.2 hr, by simp [hnone]⟩
  obtain ⟨s, hs⟩ := Option.isSome_iff_exists.1 hsome
  rw [h.applyReplacements_eq hroot, hs]
  obtain ⟨hsnone, as, bs, hsplit, has⟩ := List.find?_eq_some_iff_append.1 hs
  have hmem : r ∈ as ++ s :: bs := hsplit ▸ List.mem_mergeSort.2 hr
  -- All before the one that is not found have a node, and all behind it start later.
  rcases List.mem_append.1 hmem with hmem | hmem
  · have hsome := has r hmem
    simp [hnone] at hsome
  · rcases List.mem_cons.1 hmem with rfl | hmem
    · rfl
    · have hordered := h.pairwise_precedes_mergeSort
      rw [hsplit] at hordered
      have hprecedes := (List.pairwise_cons.1 (List.pairwise_append.1 hordered).2.1).1 r hmem
      have hsrs : s ∈ rs := List.mem_mergeSort.1 (hsplit ▸ List.mem_append_right as List.mem_cons_self)
      have hle := hleft s hsrs (by simpa using hsnone)
      have hlt := (h.fills s hsrs).nonempty
      have hstop := hprecedes.1
      rw [UInt32.le_iff_toNat_le] at hle hstop
      rw [UInt32.lt_iff_toNat_lt] at hlt
      omega

/-- In a tree whose children lie within their parents, no replacement stands above another's place.
-/
theorem editsOf_eq_none (h : root.Admits rs) (hroot : root.Contained) (hr : r ∈ rs)
    (hm : Located r.span r.kind root p m) (hq : q <+: p) (hne : q ≠ p) :
    root.editsOf rs q = none := by
  cases hnew : root.editsOf rs q with
  | none => rfl
  | some new =>
    obtain ⟨s, hs, rfl, d, hd⟩ := editsOf_eq_some hnew
    obtain ⟨t, rfl⟩ := hq
    -- The node at the upper place contains the one at the lower place, so their spans overlap.
    have hbelow : d.subtree? t = some m := by
      have hsub := hm.subtree?_eq
      rwa [subtree?_append, hd.subtree?_eq, Option.bind_some] at hsub
    have hdroot : d ∈ root.preorder := mem_preorder_of_subtree? hd.subtree?_eq
    have hcontains : d.span.contains m.span :=
      Contained.within (Everywhere.below hroot hdroot) (mem_preorder_of_subtree? hbelow)
    rw [hd.span_and_kind.1, hm.span_and_kind.1] at hcontains
    obtain rfl : s = r := h.eq_of_overlaps hs hr
      (Span.overlaps_of_contains hcontains (Span.contains_self _) (h.fills r hr).nonempty)
    exact absurd (hd.place_unique hm) hne

end Admits

/-- The second tree is the first one with the new nodes at the places of their slots. What stands
above or beside them keeps all that it holds, and a subtree without any of the places is the same.
-/
structure AtOnce (root : Node) (rs : List Replacement) (t : Node) : Prop where
  replaced : ∀ r ∈ rs, ∀ p, root.placeOf? r.span r.kind = some p → t.subtree? p = some r.node
  kept : ∀ p m, root.subtree? p = some m →
    (∀ r ∈ rs, ∀ q, root.placeOf? r.span r.kind = some q → ¬ q <+: p) →
    ∃ d, t.subtree? p = some d ∧ d.span = m.span ∧ d.shape.form = m.shape.form ∧
      ((∀ r ∈ rs, ∀ q, root.placeOf? r.span r.kind = some q → ¬ p <+: q) → d = m)

theorem Admits.atOnce_replacing (h : root.Admits rs) (hroot : root.Contained) :
    root.AtOnce rs (root.replacing (root.editsOf rs)) := by
  constructor
  · intro r hr p hp
    obtain ⟨m, hm⟩ := placeOf?_eq_some.1 hp
    rw [subtree?_replacing hm.subtree?_eq fun q hq hne => h.editsOf_eq_none hroot hr hm hq hne,
      replacing_of_edit]
    rw [List.append_nil]
    exact h.editsOf_eq hr hm
  · intro p m hm hnot
    have hway (q : Path) (hq : q <+: p) : root.editsOf rs q = none := by
      cases hnew : root.editsOf rs q with
      | none => rfl
      | some new =>
        obtain ⟨r, hr, -, hplace⟩ := editsOf_eq_some hnew
        exact absurd hq (hnot r hr q (placeOf?_eq_some.2 hplace))
    have hself : root.editsOf rs (p ++ []) = none := by
      rw [List.append_nil]
      exact hway p (List.prefix_refl p)
    refine ⟨_, subtree?_replacing hm fun q hq _ => hway q hq, span_replacing hself, ?_, ?_⟩
    · rw [replacing_of_none hself]
      exact Shape.form_mapIdx _ _
    · intro hbelow
      apply replacing_eq_self
      intro q
      cases hnew : root.editsOf rs (p ++ q) with
      | none => rfl
      | some new =>
        obtain ⟨r, hr, -, hplace⟩ := editsOf_eq_some hnew
        exact absurd (List.prefix_append p q) (hbelow r hr _ (placeOf?_eq_some.2 hplace))

/-- Applying a batch step by step is replacing all at once in the first tree. It succeeds when each
replacement has a node there, and otherwise the leftmost one without is not found. -/
theorem applyReplacements_at_once (hroot : root.Contained) (h : root.Admits rs) :
    ((∃ t, root.applyReplacements rs = .ok t) ↔
        ∀ r ∈ rs, ∃ m, root.findSpan? r.span r.kind = some m) ∧
      (∀ t, root.applyReplacements rs = .ok t → root.AtOnce rs t) ∧
      ∀ r ∈ rs, root.findSpan? r.span r.kind = none →
        (∀ s ∈ rs, root.findSpan? s.span s.kind = none → r.span.start ≤ s.span.start) →
        root.applyReplacements rs = .error (.notFound r.kind r.span) := by
  have hfound (t : Node) (ht : root.applyReplacements rs = .ok t) :
      (∀ r ∈ rs, ∃ m, root.findSpan? r.span r.kind = some m) ∧
        t = root.replacing (root.editsOf rs) := by
    rw [h.applyReplacements_eq hroot] at ht
    split at ht
    · cases ht
    · rename_i hnone
      refine ⟨fun r hr => Option.ne_none_iff_exists'.1 ?_, (Except.ok.inj ht).symm⟩
      simpa using List.find?_eq_none.1 hnone r (List.mem_mergeSort.2 hr)
  refine ⟨⟨?_, ?_⟩, ?_, ?_⟩
  · rintro ⟨t, ht⟩
    exact (hfound t ht).1
  · intro hall
    exact ⟨_, h.applyReplacements_of_found hroot hall⟩
  · intro t ht
    rw [(hfound t ht).2]
    exact h.atOnce_replacing hroot
  · intro r hr hnone hleft
    exact h.applyReplacements_of_not_found hroot hr hnone hleft

theorem applyReplacements_at_once_tryGet :
    let operands : List Replacement :=
      [⟨⟨27, 28⟩, .identifier, ⟨⟨27, 28⟩, .literal .null⟩⟩,
        ⟨⟨22, 23⟩, .identifier, ⟨⟨22, 23⟩, .memberAccess ⟨⟨22, 23⟩, .identifier "c"⟩ "d"⟩⟩]
    tryGet.Contained ∧ tryGet.Admits operands ∧
      ∃ t, tryGet.applyReplacements operands = .ok t ∧ tryGet.AtOnce operands t := by
  intro operands
  have hcontained : tryGet.Contained := by decide +kernel
  have hadmits : tryGet.Admits operands := by
    refine ⟨fun r hr => ?_, by decide, by decide⟩
    simp only [operands, List.mem_cons, List.not_mem_nil, or_false] at hr
    rcases hr with rfl | rfl
    · exact ⟨by decide, rfl, rfl⟩
    · exact ⟨by decide, rfl, rfl⟩
  obtain ⟨hok, hatOnce, -⟩ := applyReplacements_at_once hcontained hadmits
  have hfound : ∀ r ∈ operands, (tryGet.findSpan? r.span r.kind).isSome := by decide +kernel
  obtain ⟨t, ht⟩ := hok.2 fun r hr => Option.isSome_iff_exists.1 (hfound r hr)
  exact ⟨hcontained, hadmits, t, ht, hatOnce t ht⟩

/-- When a new node takes the place of the whole tree and reaches beyond it, a later replacement is
put into that node, although the first tree has no node for it. -/
theorem applyReplacements_beyond_root :
    let root : Node := ⟨⟨0, 5⟩, .identifier "a"⟩
    let whole : Replacement :=
      ⟨⟨0, 5⟩, .identifier, ⟨⟨0, 5⟩, .memberAccess ⟨⟨10, 15⟩, .identifier "b"⟩ "m"⟩⟩
    let beyond : Replacement := ⟨⟨10, 15⟩, .identifier, ⟨⟨10, 15⟩, .identifier "c"⟩⟩
    root.Contained ∧ (∀ r ∈ [whole, beyond], r.FillsSlot) ∧
      ([whole, beyond].Pairwise fun r s => ¬ r.span.overlaps s.span) ∧
      root.findSpan? beyond.span beyond.kind = none ∧
      root.applyReplacements [whole, beyond] =
        .ok ⟨⟨0, 5⟩, .memberAccess ⟨⟨10, 15⟩, .identifier "c"⟩ "m"⟩ := by
  intro root whole beyond
  refine ⟨by decide +kernel, fun r hr => ?_, by decide, by decide +kernel, by cbv⟩
  simp only [List.mem_cons, List.not_mem_nil, or_false] at hr
  rcases hr with rfl | rfl
  · exact ⟨by decide, rfl, rfl⟩
  · exact ⟨by decide, rfl, rfl⟩

end Node

end TreeLint
