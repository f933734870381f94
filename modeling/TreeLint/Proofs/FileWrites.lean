import Mathlib.Data.List.Pairwise
import TreeLint.Proofs.Places
import TreeLint.Proofs.WrittenFiles

namespace TreeLint

namespace FileSystem

variable {fs : FileSystem} {l m : Location} {text : String} {ws : List (Location × String)}

/-- Files have names that files can have, and no file is a directory. -/
structure IsRegular (fs : FileSystem) : Prop where
  isFileName : ∀ f ∈ fs.files, ∀ name ∈ f.1, FilePath.IsFileName name
  not_isDirectory : ∀ f ∈ fs.files, ¬ fs.isDirectory f.1

theorem isDirectory_iff : fs.isDirectory l ↔
    l = [] ∨ (∃ d ∈ fs.directories, l <+: d) ∨ ∃ f ∈ fs.files, l <+: f.1 ∧ l ≠ f.1 := by
  simp [isDirectory, or_assoc]

theorem isDirectory_of_prefix (h : fs.isDirectory m) (hlm : l <+: m) : fs.isDirectory l := by
  rw [isDirectory_iff] at *
  rcases h with rfl | ⟨d, hd, hmd⟩ | ⟨f, hf, hmf, hne⟩
  · exact .inl (List.prefix_nil.1 hlm)
  · exact .inr (.inl ⟨d, hd, hlm.trans hmd⟩)
  · refine .inr (.inr ⟨f, hf, hlm.trans hmf, ?_⟩)
    rintro rfl
    exact hne (hmf.eq_of_length_le hlm.length_le)

theorem IsRegular.content?_eq_none (h : fs.IsRegular) (hl : fs.isDirectory l) :
    fs.content? l = none := by
  apply List.lookup_eq_none_iff.2
  intro f hf
  apply bne_iff_ne.2
  rintro rfl
  exact h.not_isDirectory f hf hl

theorem isDirectory_put {parent : Location} {name : Bytes} (hparent : fs.isDirectory parent)
    (hl : ¬ fs.isDirectory (parent ++ [name])) (m : Location) :
    (fs.put (parent ++ [name]) text).isDirectory m = fs.isDirectory m := by
  have hwrite : fs.write? (parent ++ [name]) text = some (fs.put (parent ++ [name]) text) := by
    rw [write?_eq, if_neg hl]
  apply Bool.eq_iff_iff.2
  constructor
  · intro hm
    rw [isDirectory_iff] at hm
    rcases hm with rfl | ⟨d, hd, hmd⟩ | ⟨f, hf, hmf, hne⟩
    · rfl
    · exact isDirectory_iff.2 (.inr (.inl ⟨d, hd, hmd⟩))
    · rcases List.mem_append.1 hf with hf | hf
      · exact isDirectory_iff.2 (.inr (.inr ⟨f, (List.mem_filter.1 hf).1, hmf, hne⟩))
      · cases List.mem_singleton.1 hf
        rcases List.prefix_concat_iff.1 hmf with heq | hbelow
        · exact absurd heq hne
        · exact isDirectory_of_prefix hparent hbelow
  · exact isDirectory_write? hwrite

theorem content?_put_of_ne (h : m ≠ l) : (fs.put l text).content? m = fs.content? m := by
  have hothers : ∀ files : List (Location × Content),
      (files.filter fun f => f.1 != l).lookup m = files.lookup m := by
    intro files
    induction files with
    | nil => rfl
    | cons f files ih =>
      by_cases hf : f.1 = l
      · have hm : (m == f.1) = false := beq_false_of_ne (hf ▸ h)
        rw [List.filter_cons_of_neg (by simp [hf]), ih, List.lookup_cons, hm]
      · rw [List.filter_cons_of_pos (by simp [hf]), List.lookup_cons, List.lookup_cons, ih]
  have hl : (m == l) = false := beq_false_of_ne h
  rw [content?, put, List.lookup_append, hothers, List.lookup_cons, hl]
  exact Option.or_none

theorem filter_files_put {q : Location → Bool} (h : q l = false) :
    ((fs.put l text).files.filter fun f => q f.1) = fs.files.filter fun f => q f.1 := by
  rw [put, List.filter_append, List.filter_cons_of_neg (by simp [h]), List.filter_nil,
    List.append_nil, List.filter_filter]
  apply List.filter_congr
  intro f _
  by_cases hf : f.1 = l
  · simp [hf, h]
  · simp [hf]

/-- The file system with files, written in this order. -/
def putAll (fs : FileSystem) (ws : List (Location × String)) : FileSystem :=
  ws.foldl (fun fs w => fs.put w.1 w.2) fs

theorem content?_putAll (h : ∀ w ∈ ws, m ≠ w.1) : (fs.putAll ws).content? m = fs.content? m := by
  induction ws generalizing fs with
  | nil => rfl
  | cons w ws ih =>
    obtain ⟨hw, hws⟩ := List.forall_mem_cons.1 h
    exact (ih hws).trans (content?_put_of_ne hw)

theorem content?_putAll_concat (fs : FileSystem) (ws : List (Location × String)) (l : Location)
    (text : String) : (fs.putAll (ws ++ [(l, text)])).content? l = some (.text text) := by
  rw [putAll, List.foldl_append]
  exact content?_put_self _ l text

theorem filter_files_putAll {q : Location → Bool} (h : ∀ w ∈ ws, q w.1 = false) :
    ((fs.putAll ws).files.filter fun f => q f.1) = fs.files.filter fun f => q f.1 := by
  induction ws generalizing fs with
  | nil => rfl
  | cons w ws ih =>
    obtain ⟨hw, hws⟩ := List.forall_mem_cons.1 h
    exact (ih hws).trans (filter_files_put hw)

theorem directories_putAll (fs : FileSystem) (ws : List (Location × String)) :
    (fs.putAll ws).directories = fs.directories := by
  induction ws generalizing fs with
  | nil => rfl
  | cons w ws ih => exact ih (fs.put w.1 w.2)

/-- The writes that are not followed by another one to the same place. -/
def lastWrites (ws : List (Location × String)) : List (Location × String) :=
  ws.pwFilter fun w v => w.1 ≠ v.1

theorem forall_mem_lastWrites : (∀ w ∈ lastWrites ws, l ≠ w.1) ↔ l ∉ ws.map Prod.fst := by
  have hlast := List.forall_mem_pwFilter (R := fun w v : Location × String => w.1 ≠ v.1)
    (fun {x y z} h => by
      by_cases hxy : x.1 = y.1
      · exact .inr (hxy ▸ h)
      · exact .inl hxy) (l, "") ws
  rw [lastWrites, hlast, List.mem_map]
  constructor
  · rintro h ⟨w, hw, rfl⟩
    exact h w hw rfl
  · rintro h w hw rfl
    exact h ⟨w, hw, rfl⟩

theorem files_putAll (fs : FileSystem) (ws : List (Location × String)) :
    (fs.putAll ws).files =
      (fs.files.filter fun f => decide (f.1 ∉ ws.map Prod.fst)) ++
        (lastWrites ws).map fun w => (w.1, .text w.2) := by
  induction ws generalizing fs with
  | nil =>
    rw [lastWrites, List.pwFilter_nil, List.map_nil, List.map_nil, List.append_nil]
    exact (List.filter_eq_self.2 (by simp)).symm
  | cons w ws ih =>
    have hothers : ((fs.files.filter fun f => f.1 != w.1).filter fun f =>
        decide (f.1 ∉ ws.map Prod.fst)) =
        fs.files.filter fun f => decide (f.1 ∉ (w :: ws).map Prod.fst) := by
      rw [List.filter_filter]
      apply List.filter_congr
      intro f _
      apply Bool.eq_iff_iff.2
      rw [Bool.and_eq_true, decide_eq_true_iff, decide_eq_true_iff, bne_iff_ne, List.map_cons,
        List.mem_cons, not_or, and_comm]
    rw [putAll, List.foldl_cons, ← putAll, ih, put, List.filter_append, hothers]
    -- Where a later write goes to the same place, nothing is left of this one.
    by_cases hw : w.1 ∈ ws.map Prod.fst
    · have hlater : ¬ ∀ v ∈ lastWrites ws, w.1 ≠ v.1 := fun h => forall_mem_lastWrites.1 h hw
      rw [List.filter_cons_of_neg (by simpa using hw), List.filter_nil, List.append_nil, lastWrites,
        lastWrites, List.pwFilter_cons_of_neg hlater]
    · rw [List.filter_cons_of_pos (by simpa using hw), List.filter_nil, List.append_assoc,
        lastWrites, lastWrites, List.pwFilter_cons_of_pos (forall_mem_lastWrites.2 hw)]
      rfl

/-- Files can be written once more without any change. -/
theorem putAll_putAll (fs : FileSystem) (ws : List (Location × String)) :
    (fs.putAll ws).putAll ws = fs.putAll ws := by
  have hfiles : ((fs.putAll ws).putAll ws).files = (fs.putAll ws).files := by
    rw [files_putAll (fs.putAll ws), files_putAll fs, List.filter_append, List.filter_filter]
    have hwritten : (((lastWrites ws).map fun w => (w.1, Content.text w.2)).filter fun f =>
        decide (f.1 ∉ ws.map Prod.fst)) = [] := by
      apply List.filter_eq_nil_iff.2
      intro f hf
      obtain ⟨w, hw, rfl⟩ := List.mem_map.1 hf
      have hmem : w ∈ ws := List.pwFilter_subset ws hw
      simpa using ⟨w.2, hmem⟩
    rw [hwritten, List.append_nil]
    congr 1
    apply List.filter_congr
    intro f _
    exact Bool.and_self _
  have hdirectories : ((fs.putAll ws).putAll ws).directories = (fs.putAll ws).directories :=
    directories_putAll _ _
  cases hlast : (fs.putAll ws).putAll ws
  cases hfirst : fs.putAll ws
  rw [hlast, hfirst] at hfiles hdirectories
  rw [FileSystem.mk.injEq]
  exact ⟨hfiles, hdirectories⟩

end FileSystem

namespace Workspace

variable {w w' : Workspace} {p : FilePath} {l : Location}

/-- The workspaces have one working directory and the same directories. -/
structure SameDirectories (w w' : Workspace) : Prop where
  directory : w'.directory = w.directory
  isDirectory : ∀ l, w'.fileSystem.isDirectory l = w.fileSystem.isDirectory l

theorem SameDirectories.refl (w : Workspace) : w.SameDirectories w := ⟨rfl, fun _ => rfl⟩

theorem SameDirectories.trans {w'' : Workspace} (h : w.SameDirectories w')
    (h' : w'.SameDirectories w'') : w.SameDirectories w'' :=
  ⟨h'.directory.trans h.directory, fun l => (h'.isDirectory l).trans (h.isDirectory l)⟩

theorem SameDirectories.enter?_eq (h : w.SameDirectories w') : w'.enter? = w.enter? := by
  funext l c
  cases c with
  | root => rfl
  | current => rw [enter?, enter?, h.isDirectory]
  | parent => rw [enter?, enter?, h.isDirectory]
  | normal name => rw [enter?, enter?, h.isDirectory]

theorem SameDirectories.locate?_eq (h : w.SameDirectories w') : w'.locate? p = w.locate? p := by
  rw [locate?, locate?, h.enter?_eq, h.directory]

theorem SameDirectories.isDirectory_eq (h : w.SameDirectories w') :
    w'.isDirectory p = w.isDirectory p := by
  rw [Workspace.isDirectory, Workspace.isDirectory, h.locate?_eq]
  simp only [h.isDirectory]

/-- The workspace with files, written in this order. -/
def putAll (w : Workspace) (ws : List (Location × String)) : Workspace :=
  { w with fileSystem := w.fileSystem.putAll ws }

theorem locate?_concat {front : List Component} {name : Bytes}
    (hp : p.components = front ++ [.normal name]) :
    w.locate? p = some l ↔ ∃ parent, front.foldlM w.enter? w.directory = some parent ∧
      w.fileSystem.isDirectory parent ∧ l = parent ++ [name] := by
  rw [locate?, hp, List.foldlM_append]
  constructor
  · intro h
    obtain ⟨parent, hparent, hlast⟩ := Option.bind_eq_some_iff.1 h
    rw [List.foldlM_cons, enter?] at hlast
    split at hlast
    · rename_i hdirectory
      cases hlast
      exact ⟨parent, hparent, hdirectory, rfl⟩
    · cases hlast
  · rintro ⟨parent, hparent, hdirectory, rfl⟩
    rw [hparent, Option.bind_eq_bind, Option.bind_some, List.foldlM_cons, enter?, if_pos hdirectory]
    rfl

theorem locate?_fixed (hp : p.fileName?.isSome) (h : w.locate? p = some l) :
    w.locate? p.fixed = some (l.dropLast ++ [p.fixedName]) := by
  obtain ⟨name, hname⟩ := Option.isSome_iff_exists.1 hp
  obtain ⟨parent, hparent, hdirectory, rfl⟩ :=
    (locate?_concat (FilePath.components_of_fileName? hname)).1 h
  rw [List.dropLast_concat]
  exact (locate?_concat (FilePath.components_fixed hp)).2 ⟨parent, hparent, hdirectory, rfl⟩

end Workspace

end TreeLint
