import TreeLint.CommandLine.Run
import TreeLint.Proofs.FileWrites

namespace TreeLint

namespace Workspace

variable {w w' : Workspace} {p : FilePath} {text : String}

/-- The place and the text of a file that can be written. -/
def placed? (w : Workspace) (p : FilePath) (text : String) : Option (Location × String) :=
  (w.locate? p).bind fun l => if w.fileSystem.isDirectory l then none else some (l, text)

theorem placed?_eq_some {placed : Location × String} : w.placed? p text = some placed ↔
    w.locate? p = some placed.1 ∧ ¬ w.fileSystem.isDirectory placed.1 ∧ text = placed.2 := by
  obtain ⟨l, stored⟩ := placed
  rw [placed?, Option.bind_eq_some_iff]
  constructor
  · rintro ⟨m, hm, hwritten⟩
    split at hwritten
    · cases hwritten
    · rename_i hfree
      cases hwritten
      exact ⟨hm, hfree, rfl⟩
  · rintro ⟨hl, hfree, rfl⟩
    exact ⟨l, hl, if_neg hfree⟩

theorem write?_eq (w : Workspace) (p : FilePath) (text : String) :
    w.write? p text = (w.placed? p text).map fun placed => w.putAll [placed] := by
  rw [write?, placed?]
  cases w.locate? p with
  | none => rfl
  | some l =>
    rw [Option.bind_some, Option.bind_eq_bind, Option.bind_some, FileSystem.write?_eq]
    split
    · rfl
    · rfl

theorem SameDirectories.placed?_eq (h : w.SameDirectories w') :
    w'.placed? p text = w.placed? p text := by
  rw [placed?, placed?, h.locate?_eq]
  simp only [h.isDirectory]

theorem sameDirectories_putAll_placed? {front : List Component} {name : Bytes}
    (hp : p.components = front ++ [.normal name]) :
    w.SameDirectories (w.putAll (w.placed? p text).toList) := by
  cases hplaced : w.placed? p text with
  | none => exact .refl w
  | some placed =>
    obtain ⟨l, stored⟩ := placed
    obtain ⟨hl, hfree, -⟩ := placed?_eq_some.1 hplaced
    obtain ⟨parent, -, hparent, rfl⟩ := (locate?_concat hp).1 hl
    exact ⟨rfl, FileSystem.isDirectory_put hparent hfree⟩

end Workspace

namespace CommandLine

variable {w w' : Workspace} {p : FilePath} {reviewed : Except DocumentError Review}

/-- What is written for a reviewed document in a run that fixes. -/
def written? (w : Workspace) (p : FilePath) :
    Except DocumentError Review → Option (Location × String)
  | .error _ => none
  | .ok r =>
    if r.findings.isEmpty then none
    else r.fixed.bind fun document => w.placed? p.fixed document.print

theorem written?_of_fixed {r : Review} {document : Document} (hfindings : ¬ r.findings.isEmpty)
    (hfixed : r.fixed = some document) :
    written? w p (.ok r) = w.placed? p.fixed document.print := by
  rw [written?, if_neg hfindings, hfixed, Option.bind_some]

theorem settle_snd (w : Workspace) (p : FilePath) (reviewed : Except DocumentError Review) :
    (settle true w p reviewed).2 = w.putAll (written? w p reviewed).toList := by
  cases reviewed with
  | error => rfl
  | ok r =>
    rw [settle, written?]
    split
    · rfl
    · rw [if_pos rfl, writeFixed]
      cases r.fixed with
      | none => rfl
      | some document =>
        dsimp only
        rw [Workspace.write?_eq, Option.bind_some]
        cases w.placed? p.fixed document.print with
        | none => rfl
        | some placed => rfl

theorem settle_fst_congr (h : w.SameDirectories w') (fixing : Bool) :
    (settle fixing w' p reviewed).1 = (settle fixing w p reviewed).1 := by
  cases reviewed with
  | error => rfl
  | ok r =>
    rw [settle, settle]
    split
    · rfl
    · split
      · rw [writeFixed, writeFixed]
        cases r.fixed with
        | none => rfl
        | some document =>
          dsimp only
          rw [Workspace.write?_eq, Workspace.write?_eq, h.placed?_eq]
          cases w.placed? p.fixed document.print with
          | none => rfl
          | some placed => rfl
      · rfl

theorem written?_congr (h : w.SameDirectories w') : written? w' p reviewed = written? w p reviewed := by
  cases reviewed with
  | error => rfl
  | ok r => simp only [written?, h.placed?_eq]

theorem locate?_of_written? {placed : Location × String}
    (h : written? w p reviewed = some placed) :
    w.locate? p.fixed = some placed.1 ∧ ¬ w.fileSystem.isDirectory placed.1 := by
  cases reviewed with
  | error => cases h
  | ok r =>
    rw [written?] at h
    split at h
    · cases h
    · obtain ⟨document, -, hplaced⟩ := Option.bind_eq_some_iff.1 h
      obtain ⟨hlocate, hfree, -⟩ := Workspace.placed?_eq_some.1 hplaced
      exact ⟨hlocate, hfree⟩

theorem sameDirectories_putAll_written? :
    w.SameDirectories (w.putAll (written? w p reviewed).toList) := by
  cases reviewed with
  | error => exact .refl w
  | ok r =>
    rw [written?]
    split
    · exact .refl w
    · cases r.fixed with
      | none => exact .refl w
      | some document =>
        obtain ⟨front, hfront⟩ := p.exists_components_fixed
        rw [Option.bind_some]
        exact Workspace.sameDirectories_putAll_placed? hfront

/-- What is written for reviewed documents, in their order. -/
def writtenAll (w : Workspace) (reviews : List (FilePath × Except DocumentError Review)) :
    List (Location × String) :=
  reviews.filterMap fun r => written? w r.1 r.2

theorem writtenAll_congr (h : w.SameDirectories w')
    (reviews : List (FilePath × Except DocumentError Review)) :
    writtenAll w' reviews = writtenAll w reviews := by
  simp only [writtenAll, written?_congr h]

theorem settleAll_cons (fixing : Bool) (w : Workspace) (p : FilePath)
    (reviewed : Except DocumentError Review)
    (reviews : List (FilePath × Except DocumentError Review)) :
    settleAll fixing w ((p, reviewed) :: reviews) =
      (⟨p, (settle fixing w p reviewed).1⟩ :: (settleAll fixing (settle fixing w p reviewed).2 reviews).1,
        (settleAll fixing (settle fixing w p reviewed).2 reviews).2) := rfl

theorem settleAll_eq (w : Workspace) (reviews : List (FilePath × Except DocumentError Review)) :
    settleAll true w reviews =
      (reviews.map fun r => ⟨r.1, (settle true w r.1 r.2).1⟩, w.putAll (writtenAll w reviews)) := by
  induction reviews generalizing w with
  | nil => rfl
  | cons r reviews ih =>
    obtain ⟨p, reviewed⟩ := r
    have hsame : w.SameDirectories (settle true w p reviewed).2 := by
      rw [settle_snd]
      exact sameDirectories_putAll_written?
    rw [settleAll_cons, ih, writtenAll_congr hsame, List.map_cons]
    simp only [settle_fst_congr hsame]
    rw [settle_snd, writtenAll, writtenAll, List.filterMap_cons]
    cases written? w p reviewed with
    | none => rfl
    | some placed => rfl

theorem sameDirectories_putAll_writtenAll (w : Workspace)
    (reviews : List (FilePath × Except DocumentError Review)) :
    w.SameDirectories (w.putAll (writtenAll w reviews)) := by
  induction reviews generalizing w with
  | nil => exact .refl w
  | cons r reviews ih =>
    have hfirst : w.SameDirectories (w.putAll (written? w r.1 r.2).toList) :=
      sameDirectories_putAll_written?
    have hrest := ih (w.putAll (written? w r.1 r.2).toList)
    rw [writtenAll_congr hfirst] at hrest
    rw [writtenAll, List.filterMap_cons]
    cases hwritten : written? w r.1 r.2 with
    | none =>
      rw [hwritten] at hrest
      exact hrest
    | some placed =>
      rw [hwritten] at hfirst hrest
      exact hfirst.trans hrest

/-- The documents of a run, each with its review. -/
def reviews (w : Workspace) (plan : Plan) (args : List FilePath) :
    List (FilePath × Except DocumentError Review) :=
  (documents w plan.excludes args).map fun p => (p, review w plan.registry p)

theorem map_fst_reviews (w : Workspace) (plan : Plan) (args : List FilePath) :
    (reviews w plan args).map Prod.fst = documents w plan.excludes args := by
  rw [reviews, List.map_map]
  exact List.map_id _

end CommandLine

end TreeLint
