import TreeLint.FilePath
import TreeLint.FileSystem

namespace TreeLint

namespace FileSystem

variable {before after : FileSystem} {l m : Location} {text : String}

/-- The file system with a file, whatever stood in its place. -/
def put (fs : FileSystem) (l : Location) (text : String) : FileSystem :=
  { fs with files := (fs.files.filter fun f => f.1 != l) ++ [(l, .text text)] }

theorem write?_eq (fs : FileSystem) (l : Location) (text : String) :
    fs.write? l text = if fs.isDirectory l then none else some (fs.put l text) := rfl

theorem content?_put_self (fs : FileSystem) (l : Location) (text : String) :
    (fs.put l text).content? l = some (.text text) := by
  have hothers : (fs.files.filter fun f => f.1 != l).lookup l = none := by
    apply List.lookup_eq_none_iff.2
    intro f hf
    have hne : f.1 ≠ l := bne_iff_ne.1 (List.mem_filter.1 hf).2
    exact bne_iff_ne.2 hne.symm
  rw [content?, put, List.lookup_append, hothers]
  simp

theorem content?_write? (h : before.write? l text = some after) :
    after.content? l = some (.text text) := by
  rw [write?_eq] at h
  split at h
  · cases h
  · cases h
    exact content?_put_self before l text

theorem isDirectory_write? (h : before.write? l text = some after) (hm : before.isDirectory m) :
    after.isDirectory m := by
  rw [write?] at h
  split at h
  · cases h
  · cases h
    simp only [isDirectory, Bool.or_eq_true, List.any_eq_true] at hm ⊢
    rcases hm with hm | ⟨f, hf, hbelow⟩
    · exact .inl hm
    · apply Or.inr
      by_cases hl : f.1 = l
      · exact ⟨(l, .text text), by simp, hl ▸ hbelow⟩
      · exact ⟨f, by simp [hf, hl], hbelow⟩

end FileSystem

namespace Workspace

variable {w w' : Workspace} {fs : FileSystem} {p : FilePath} {text : String}

theorem enter?_mono (hmono : ∀ l, w.fileSystem.isDirectory l → fs.isDirectory l) {l m : Location}
    {c : Component} (h : w.enter? l c = some m) : enter? ⟨fs, w.directory⟩ l c = some m := by
  have hstep {n : Location} (h : (if w.fileSystem.isDirectory l then some n else none) = some m) :
      (if fs.isDirectory l then some n else none) = some m := by
    split at h
    · rename_i hl
      rw [if_pos (hmono l hl), h]
    · cases h
  cases c with
  | root => exact h
  | current => exact hstep h
  | parent => exact hstep h
  | normal name => exact hstep h

theorem locate?_mono (hmono : ∀ l, w.fileSystem.isDirectory l → fs.isDirectory l) {l : Location}
    (h : w.locate? p = some l) : locate? ⟨fs, w.directory⟩ p = some l := by
  have hall (cs : List Component) (m : Location) (h : cs.foldlM w.enter? m = some l) :
      cs.foldlM (enter? ⟨fs, w.directory⟩) m = some l := by
    induction cs generalizing m with
    | nil => exact h
    | cons c cs ih =>
      rw [List.foldlM_cons] at h ⊢
      obtain ⟨next, hnext, hrest⟩ := Option.bind_eq_some_iff.1 h
      exact Option.bind_eq_some_iff.2 ⟨next, enter?_mono hmono hnext, ih next hrest⟩
  exact hall _ _ h

theorem readText?_write? (hp : ¬ p.endsAsDirectory) (h : w.write? p text = some w') :
    w'.readText? p = some text := by
  obtain ⟨l, hl, h⟩ := Option.bind_eq_some_iff.1 h
  obtain ⟨fs, hfs, h⟩ := Option.bind_eq_some_iff.1 h
  cases h
  have hlocate : locate? ⟨fs, w.directory⟩ p = some l :=
    locate?_mono (fun _ => FileSystem.isDirectory_write? hfs) hl
  have hread : read? ⟨fs, w.directory⟩ p = some (.text text) := by
    rw [read?, if_neg hp, hlocate]
    exact FileSystem.content?_write? hfs
  rw [readText?, hread]

end Workspace

namespace FilePath

theorem exists_joinText (base name : Bytes) : ∃ before, joinText base name = before ++ name := by
  rw [joinText]
  split
  · exact ⟨base, rfl⟩
  · exact ⟨base ++ [slash], by simp⟩

theorem getLast?_text_fixed (p : FilePath) :
    p.fixed.text.getLast? = (Utf8.encode fixedSuffix).getLast? := by
  obtain ⟨before, htext⟩ :=
    exists_joinText (if p.fileName?.isSome then p.parentText else p.text) p.fixedName
  rw [fixed, withFileName, htext, fixedName, Utf8.encode_append, ← List.append_assoc,
    List.getLast?_append]
  rfl

theorem not_endsAsDirectory_fixed (p : FilePath) : ¬ p.fixed.endsAsDirectory := by
  have hlast := p.getLast?_text_fixed
  rw [endsAsDirectory, Bool.or_eq_true, List.isSuffixOf_iff_suffix, List.isSuffixOf_iff_suffix]
  rintro (⟨before, htext⟩ | ⟨before, htext⟩)
  · rw [← htext, List.getLast?_append] at hlast
    exact absurd hlast (by decide : some slash ≠ (Utf8.encode fixedSuffix).getLast?)
  · rw [← htext, List.getLast?_append] at hlast
    exact absurd hlast (by decide : some point ≠ (Utf8.encode fixedSuffix).getLast?)

end FilePath

end TreeLint
