import TreeLint.Proofs.PathOrder
import TreeLint.Proofs.WrittenDocuments

namespace TreeLint

namespace Workspace

variable {w : Workspace} {p q : FilePath} {l : Location} {names : List Bytes}

/-- Paths of directories that exist, all from the root or all from the working directory, written
without `.` and `..`. -/
structure AreDirectories (w : Workspace) (ps : List FilePath) : Prop where
  isDirectory : ∀ p ∈ ps, w.isDirectory p
  isPlain : ∀ p ∈ ps, p.IsPlain
  alike : ∀ p ∈ ps, ∀ q ∈ ps, p.IsAbsolute ↔ q.IsAbsolute

theorem isDirectory_iff :
    w.isDirectory p ↔ ∃ l, w.locate? p = some l ∧ w.fileSystem.isDirectory l := by
  rw [isDirectory, Option.any_eq_true]

theorem mem_below {fs : FileSystem} :
    names ∈ fs.below l ↔ names ≠ [] ∧ ∃ content, (l ++ names, content) ∈ fs.files := by
  rw [FileSystem.below, List.mem_map]
  constructor
  · rintro ⟨⟨place, content⟩, hf, rfl⟩
    obtain ⟨hf, hbelow⟩ := List.mem_filter.1 hf
    rw [Bool.and_eq_true, List.isPrefixOf_iff_prefix, bne_iff_ne] at hbelow
    obtain ⟨⟨names, rfl⟩, hne⟩ := hbelow
    rw [List.drop_left]
    exact ⟨fun hnil => hne (by simp [hnil]), content, hf⟩
  · rintro ⟨hne, content, hf⟩
    refine ⟨_, List.mem_filter.2 ⟨hf, ?_⟩, List.drop_left⟩
    rw [Bool.and_eq_true, List.isPrefixOf_iff_prefix, bne_iff_ne]
    refine ⟨List.prefix_append l names, ?_⟩
    intro heq
    exact hne (List.append_right_eq_self.1 heq.symm)

theorem mem_walk : q ∈ w.walk p ↔ ∃ l, w.locate? p = some l ∧
    ∃ names ∈ w.fileSystem.below l, names.foldl FilePath.join p = q := by
  rw [walk]
  cases w.locate? p with
  | none => simp
  | some l => simp

theorem locate?_foldl_join (hw : w.fileSystem.IsRegular) (hp : w.locate? p = some l)
    (hnames : names ∈ w.fileSystem.below l) :
    (names.foldl FilePath.join p).components = p.components ++ names.map .normal ∧
      w.locate? (names.foldl FilePath.join p) = some (l ++ names) := by
  obtain ⟨-, content, hf⟩ := mem_below.1 hnames
  have hcomponents : (names.foldl FilePath.join p).components = p.components ++ names.map .normal :=
    FilePath.components_foldl_join p fun name hname =>
      hw.isFileName _ hf name (List.mem_append_right l hname)
  refine ⟨hcomponents, ?_⟩
  rw [locate?, hcomponents, List.foldlM_append]
  rw [locate?] at hp
  rw [hp, Option.bind_eq_bind, Option.bind_some]
  apply foldlM_normal
  intro front hfront hne
  apply FileSystem.isDirectory_iff.2
  refine .inr (.inr ⟨_, hf, (List.prefix_append_right_inj l).2 hfront, ?_⟩)
  intro heq
  exact hne (List.append_cancel_left heq)

theorem locate?_congr (h : p.components = q.components) : w.locate? p = w.locate? q := by
  rw [locate?, locate?, h]

theorem exists_mem_walk (hw : w.fileSystem.IsRegular) {p' : FilePath}
    (h : p.components = p'.components) (hq : q ∈ w.walk p) :
    ∃ q' ∈ w.walk p', q'.components = q.components := by
  obtain ⟨l, hl, names, hnames, rfl⟩ := mem_walk.1 hq
  have hl' : w.locate? p' = some l := (locate?_congr h).symm.trans hl
  refine ⟨_, mem_walk.2 ⟨l, hl', names, hnames, rfl⟩, ?_⟩
  rw [(locate?_foldl_join hw hl' hnames).1, (locate?_foldl_join hw hl hnames).1, h]

theorem AreDirectories.of_components {ps qs : List FilePath} (hps : w.AreDirectories ps)
    (h : ∀ cs, cs ∈ qs.map FilePath.components → cs ∈ ps.map FilePath.components) :
    w.AreDirectories qs := by
  have hfound (q : FilePath) (hq : q ∈ qs) : ∃ p ∈ ps, p.components = q.components :=
    List.mem_map.1 (h _ (List.mem_map_of_mem hq))
  constructor
  · intro q hq
    obtain ⟨p, hp, heq⟩ := hfound q hq
    obtain ⟨l, hl, hdirectory⟩ := isDirectory_iff.1 (hps.isDirectory p hp)
    exact isDirectory_iff.2 ⟨l, (locate?_congr heq).symm.trans hl, hdirectory⟩
  · intro q hq
    obtain ⟨p, hp, heq⟩ := hfound q hq
    have hplain := hps.isPlain p hp
    exact ⟨heq ▸ hplain.not_current, heq ▸ hplain.not_parent⟩
  · intro q hq q' hq'
    obtain ⟨p, hp, heq⟩ := hfound q hq
    obtain ⟨p', hp', heq'⟩ := hfound q' hq'
    have halike := hps.alike p hp p' hp'
    rwa [FilePath.IsAbsolute, FilePath.IsAbsolute, heq, heq'] at halike

theorem isFile_eq_false (hw : w.fileSystem.IsRegular) (hp : w.isDirectory p) : w.isFile p = false := by
  obtain ⟨l, hl, hdirectory⟩ := isDirectory_iff.1 hp
  rw [isFile, read?]
  split
  · rfl
  · rw [hl]
    exact congrArg Option.isSome (hw.content?_eq_none hdirectory)

end Workspace

/-- Paths with the same components are excluded alike. -/
def Excludes.IgnoresSpelling (excludes : Excludes) : Prop :=
  ∀ p q : FilePath, p.components = q.components → excludes.covers p = excludes.covers q

theorem Excludes.ignoresSpelling_of_files_eq_nil {excludes : Excludes} (h : excludes.files = []) :
    excludes.IgnoresSpelling := by
  intro p q hpq
  rw [covers, covers, coversFile, coversFile, h, List.any_nil, List.any_nil,
    FilePath.parentComponents, FilePath.parentComponents, hpq]

namespace CommandLine

variable {w : Workspace} {excludes : Excludes} {args : List FilePath} {p q : FilePath}
  {l : Location}

theorem extension?_of_isDocument (h : isDocument excludes p) :
    p.extension? = some documentExtension := by
  rw [isDocument, Bool.and_eq_true, Bool.and_eq_true] at h
  exact beq_iff_eq.1 h.1.1

theorem not_isFixed_of_isDocument (h : isDocument excludes p) : ¬ p.isFixed := by
  rw [isDocument, Bool.and_eq_true, Bool.and_eq_true, Bool.not_eq_true'] at h
  exact Bool.eq_false_iff.1 h.1.2

theorem isDocument_congr (hexcludes : excludes.IgnoresSpelling) (h : p.components = q.components) :
    isDocument excludes p = isDocument excludes q := by
  rw [isDocument, isDocument, FilePath.extension?, FilePath.extension?, FilePath.isFixed,
    FilePath.isFixed, FilePath.fileName?, FilePath.fileName?, h, hexcludes p q h]

/-- What is known of a document that a run over directories finds. -/
structure Found (w : Workspace) (excludes : Excludes) (args : List FilePath) (p : FilePath) :
    Prop where
  located : ∃ l, w.locate? p = some l
  isPlain : p.IsPlain
  alike : ∃ a ∈ args, p.IsAbsolute ↔ a.IsAbsolute
  isDocument : isDocument excludes p

theorem mem_expand_of_directory (hw : w.fileSystem.IsRegular) (hp : w.isDirectory p) :
    q ∈ expand w excludes p ↔ q ∈ w.walk p ∧ isDocument excludes q := by
  rw [expand, Workspace.isFile_eq_false hw hp, if_neg Bool.false_ne_true, if_pos hp, List.mem_filter]

theorem mem_of_mem_documents (h : p ∈ documents w excludes args) :
    ∃ a ∈ args, p ∈ expand w excludes a := by
  have hmem := (dropRepeats_sublist _).mem h
  rwa [List.mem_mergeSort, List.mem_flatMap] at hmem

theorem exists_mem_documents {a : FilePath} (ha : a ∈ args) (h : p ∈ expand w excludes a) :
    ∃ q ∈ documents w excludes args, q.components = p.components := by
  apply exists_mem_dropRepeats
  rw [List.mem_mergeSort, List.mem_flatMap]
  exact ⟨a, ha, h⟩

theorem found_of_mem (hw : w.fileSystem.IsRegular) (hargs : w.AreDirectories args)
    (h : p ∈ documents w excludes args) : Found w excludes args p := by
  obtain ⟨a, ha, hp⟩ := mem_of_mem_documents h
  obtain ⟨hwalk, hdocument⟩ := (mem_expand_of_directory hw (hargs.isDirectory a ha)).1 hp
  obtain ⟨l, hl, names, hnames, rfl⟩ := Workspace.mem_walk.1 hwalk
  obtain ⟨hcomponents, hlocated⟩ := Workspace.locate?_foldl_join hw hl hnames
  have hplain := hargs.isPlain a ha
  exact ⟨⟨_, hlocated⟩, .of_components hcomponents hplain.not_current hplain.not_parent,
    ⟨a, ha, FilePath.isAbsolute_iff_of_components hcomponents⟩, hdocument⟩

namespace Found

theorem isSome_fileName? (hp : Found w excludes args p) : p.fileName?.isSome := by
  rw [FilePath.fileName?_of_extension (extension?_of_isDocument hp.isDocument)]
  rfl

theorem isAbsolute_iff (hargs : w.AreDirectories args) (hp : Found w excludes args p)
    (hq : Found w excludes args q) : p.IsAbsolute ↔ q.IsAbsolute := by
  obtain ⟨a, ha, hpa⟩ := hp.alike
  obtain ⟨b, hb, hqb⟩ := hq.alike
  rw [hpa, hqb]
  exact hargs.alike a ha b hb

theorem components_eq (hargs : w.AreDirectories args) (hp : Found w excludes args p)
    (hq : Found w excludes args q) (hpl : w.locate? p = some l) (hql : w.locate? q = some l) :
    p.components = q.components :=
  Workspace.components_eq_of_locate? hp.isPlain hq.isPlain (isAbsolute_iff hargs hp hq) hpl hql

/-- Two documents have their fixed forms in one place exactly where they are in one directory and
decoding makes their stems alike. -/
theorem locate?_fixed_eq_iff (hargs : w.AreDirectories args) (hp : Found w excludes args p)
    (hq : Found w excludes args q) (hpl : w.locate? p.fixed = some l) :
    w.locate? q.fixed = some l ↔ q.FixedAlike p := by
  rw [← FilePath.components_fixed_eq_iff hq.isSome_fileName? hp.isSome_fileName?]
  constructor
  · intro hql
    have habsolute : q.fixed.IsAbsolute ↔ p.fixed.IsAbsolute := by
      rw [FilePath.isAbsolute_fixed hp.isSome_fileName?, FilePath.isAbsolute_fixed hq.isSome_fileName?]
      exact isAbsolute_iff hargs hq hp
    exact Workspace.components_eq_of_locate? (hq.isPlain.fixed hq.isSome_fileName?)
      (hp.isPlain.fixed hp.isSome_fileName?) habsolute hql hpl
  · intro heq
    rw [Workspace.locate?_congr heq, hpl]

theorem locate?_ne_fixed (hargs : w.AreDirectories args) (hp : Found w excludes args p)
    (hq : Found w excludes args q) (hpl : w.locate? p.fixed = some l) : w.locate? q ≠ some l := by
  intro hql
  have habsolute : q.IsAbsolute ↔ p.fixed.IsAbsolute := by
    rw [FilePath.isAbsolute_fixed hp.isSome_fileName?]
    exact isAbsolute_iff hargs hq hp
  have heq := Workspace.components_eq_of_locate? hq.isPlain (hp.isPlain.fixed hp.isSome_fileName?)
    habsolute hql hpl
  rw [FilePath.components_fixed hp.isSome_fileName?] at heq
  exact not_isFixed_of_isDocument hq.isDocument (FilePath.isFixed_of_components heq)

end Found

end CommandLine

end TreeLint
