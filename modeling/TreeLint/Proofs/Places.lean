import TreeLint.FileSystem
import TreeLint.Proofs.PathComponents

namespace TreeLint

def Component.name? : Component → Option Bytes
  | .normal name => some name
  | _ => none

namespace FilePath

variable {p q : FilePath}

def IsAbsolute (p : FilePath) : Prop := .root ∈ p.components

instance (p : FilePath) : Decidable p.IsAbsolute :=
  inferInstanceAs (Decidable (.root ∈ p.components))

/-- The path is written without `.` and `..` components. -/
structure IsPlain (p : FilePath) : Prop where
  not_current : .current ∉ p.components
  not_parent : .parent ∉ p.components

theorem isPlain_iff : p.IsPlain ↔ .current ∉ p.components ∧ .parent ∉ p.components :=
  ⟨fun h => ⟨h.not_current, h.not_parent⟩, fun ⟨hcurrent, hparent⟩ => ⟨hcurrent, hparent⟩⟩

instance (p : FilePath) : Decidable p.IsPlain := decidable_of_iff _ isPlain_iff.symm

def names (p : FilePath) : List Bytes := p.components.filterMap Component.name?

theorem map_normal_filterMap {cs : List Component} (h : ∀ c ∈ cs, ∃ name, c = .normal name) :
    (cs.filterMap Component.name?).map .normal = cs := by
  induction cs with
  | nil => rfl
  | cons c cs ih =>
    obtain ⟨⟨name, rfl⟩, hcs⟩ := List.forall_mem_cons.1 h
    exact congrArg (Component.normal name :: ·) (ih hcs)

theorem innerComponent?_ne_root (s : Bytes) : innerComponent? s ≠ some .root := by
  rw [innerComponent?]
  split
  · simp
  · split
    · simp
    · simp

theorem root_not_mem_tail (p : FilePath) : .root ∉ p.components.tail := by
  obtain ⟨s, ss, hs⟩ := exists_splitSlash_eq_cons p.text
  by_cases hempty : s = [] ∧ ss = []
  · rw [components_eq, textComponents, hs, segmentComponents, if_pos hempty]
    exact List.not_mem_nil
  · obtain ⟨c, -, hpieces⟩ := exists_pieces_eq hs hempty
    rw [components, hpieces, List.map_cons, map_fst_innerPieces, List.tail_cons]
    intro hroot
    obtain ⟨t, -, ht⟩ := List.mem_filterMap.1 hroot
    exact innerComponent?_ne_root t ht

theorem IsPlain.components_eq (h : p.IsPlain) :
    p.components = (if p.IsAbsolute then [.root] else []) ++ p.names.map .normal := by
  have hcurrent := h.not_current
  have hparent := h.not_parent
  have htail := p.root_not_mem_tail
  rw [names]
  cases hcs : p.components with
  | nil =>
    have hrelative : ¬ p.IsAbsolute := by
      rw [IsAbsolute, hcs]
      exact List.not_mem_nil
    rw [if_neg hrelative]
    rfl
  | cons c cs =>
    rw [hcs, List.mem_cons, not_or] at hcurrent hparent
    rw [hcs, List.tail_cons] at htail
    have hnormal : (cs.filterMap Component.name?).map .normal = cs := by
      apply map_normal_filterMap
      intro d hd
      cases d with
      | root => exact absurd hd htail
      | current => exact absurd hd hcurrent.2
      | parent => exact absurd hd hparent.2
      | normal name => exact ⟨name, rfl⟩
    cases c with
    | root =>
      have habsolute : p.IsAbsolute := by
        rw [IsAbsolute, hcs]
        exact List.mem_cons_self
      rw [if_pos habsolute, List.filterMap_cons_none rfl, hnormal]
      rfl
    | current => exact absurd rfl hcurrent.1
    | parent => exact absurd rfl hparent.1
    | normal name =>
      have hrelative : ¬ p.IsAbsolute := by
        rw [IsAbsolute, hcs, List.mem_cons, not_or]
        exact ⟨nofun, htail⟩
      have hname : Component.name? (.normal name) = some name := rfl
      rw [if_neg hrelative, List.filterMap_cons_some hname, List.map_cons, hnormal]
      rfl

variable {front : List Component} {names : List Bytes}

theorem mem_append_normal {c : Component} (hc : c.name? = none) :
    c ∈ front ++ names.map .normal ↔ c ∈ front := by
  rw [List.mem_append]
  apply or_iff_left
  intro hmem
  obtain ⟨name, -, rfl⟩ := List.mem_map.1 hmem
  cases hc

theorem IsPlain.of_components (h : q.components = front ++ names.map .normal)
    (hcurrent : .current ∉ front) (hparent : .parent ∉ front) : q.IsPlain := by
  constructor
  · rwa [h, mem_append_normal rfl]
  · rwa [h, mem_append_normal rfl]

theorem isAbsolute_iff_of_components (h : q.components = front ++ names.map .normal) :
    q.IsAbsolute ↔ .root ∈ front := by
  rw [IsAbsolute, h, mem_append_normal rfl]

theorem isAbsolute_fixed (h : p.fileName?.isSome) : p.fixed.IsAbsolute ↔ p.IsAbsolute := by
  obtain ⟨name, hname⟩ := Option.isSome_iff_exists.1 h
  have hp : p.components = p.components.dropLast ++ [name].map .normal := components_of_fileName? hname
  have hfixed : p.fixed.components = p.components.dropLast ++ [p.fixedName].map .normal :=
    components_fixed h
  rw [isAbsolute_iff_of_components hfixed, isAbsolute_iff_of_components hp]

theorem IsPlain.fixed (hp : p.IsPlain) (h : p.fileName?.isSome) : p.fixed.IsPlain := by
  have hfixed : p.fixed.components = p.components.dropLast ++ [p.fixedName].map .normal :=
    components_fixed h
  apply IsPlain.of_components hfixed
  · exact fun hmem => hp.not_current ((List.dropLast_sublist _).mem hmem)
  · exact fun hmem => hp.not_parent ((List.dropLast_sublist _).mem hmem)

end FilePath

namespace Workspace

variable {w : Workspace} {p q : FilePath} {l m : Location} {names : List Bytes}

theorem of_foldlM_normal (h : (names.map .normal).foldlM w.enter? l = some m) :
    m = l ++ names := by
  induction names generalizing l with
  | nil =>
    cases h
    exact (List.append_nil _).symm
  | cons name names ih =>
    rw [List.map_cons, List.foldlM_cons] at h
    obtain ⟨next, hnext, hrest⟩ := Option.bind_eq_some_iff.1 h
    rw [enter?] at hnext
    split at hnext
    · cases hnext
      rw [ih hrest, List.append_assoc]
      rfl
    · cases hnext

theorem foldlM_normal (h : ∀ front, front <+: names → front ≠ names →
      w.fileSystem.isDirectory (l ++ front)) :
    (names.map .normal).foldlM w.enter? l = some (l ++ names) := by
  induction names generalizing l with
  | nil =>
    rw [List.append_nil]
    rfl
  | cons name names ih =>
    have hfirst := h [] List.nil_prefix nofun
    rw [List.append_nil] at hfirst
    have hrest := ih (l := l ++ [name]) fun front hfront hne => by
      have hdirectory := h (name :: front) (List.cons_prefix_cons.2 ⟨rfl, hfront⟩)
        fun heq => hne (List.cons_inj_right _ |>.1 heq)
      rwa [List.append_assoc]
    rw [List.map_cons, List.foldlM_cons, enter?, if_pos hfirst]
    rw [List.append_assoc] at hrest
    exact hrest

theorem locate?_of_isPlain (hp : p.IsPlain) (h : w.locate? p = some l) :
    l = (if p.IsAbsolute then [] else w.directory) ++ p.names := by
  rw [locate?, hp.components_eq, List.foldlM_append] at h
  split at h
  · rename_i habsolute
    rw [if_pos habsolute]
    exact of_foldlM_normal h
  · rename_i hrelative
    rw [if_neg hrelative]
    exact of_foldlM_normal h

/-- Plain paths to one place have the same components. -/
theorem components_eq_of_locate? (hp : p.IsPlain) (hq : q.IsPlain)
    (habsolute : p.IsAbsolute ↔ q.IsAbsolute) (hpl : w.locate? p = some l)
    (hql : w.locate? q = some l) : p.components = q.components := by
  have hnames : p.names = q.names := by
    have hplace := (locate?_of_isPlain hp hpl).symm.trans (locate?_of_isPlain hq hql)
    simp only [habsolute] at hplace
    exact List.append_cancel_left hplace
  rw [hp.components_eq, hq.components_eq, hnames]
  simp only [habsolute]

end Workspace

end TreeLint
