import TreeLint.Proofs.DirectoryRuns
import TreeLint.Proofs.Rereading

namespace TreeLint.CommandLine

variable {w : Workspace} {excludes : Excludes} {plan : Plan} {args : List FilePath}
  {ws : List (Location × String)} {p : FilePath}

theorem not_isDocument_join_fixedName (p q : FilePath) :
    isDocument excludes (q.join p.fixedName) = false := by
  have hfixed : (q.join p.fixedName).isFixed :=
    FilePath.isFixed_of_components (FilePath.components_join q p.isFileName_fixedName)
  rw [isDocument, hfixed, Bool.not_true, Bool.and_false, Bool.false_and]

theorem filter_walk {l : Location} (hl : w.locate? p = some l) (d : FilePath → Bool) :
    (w.walk p).filter d =
      (w.fileSystem.files.filter fun f => (l.isPrefixOf f.1 && l != f.1) &&
        d ((f.1.drop l.length).foldl FilePath.join p)).map
          fun f => (f.1.drop l.length).foldl FilePath.join p := by
  rw [Workspace.walk, hl]
  dsimp only
  rw [FileSystem.below, List.map_map, List.filter_map, List.filter_filter]
  simp only [Function.comp_apply, Bool.and_comm]
  rfl

theorem filter_walk_putAll (hsame : w.SameDirectories (w.putAll ws))
    (hws : ∀ m ∈ ws, ∃ q : FilePath, w.locate? q.fixed = some m.1) :
    ((w.putAll ws).walk p).filter (isDocument excludes) =
      (w.walk p).filter (isDocument excludes) := by
  cases hl : w.locate? p with
  | none => rw [Workspace.walk, Workspace.walk, hsame.locate?_eq, hl]
  | some l =>
    rw [filter_walk hl, filter_walk (hsame.locate?_eq.trans hl)]
    congr 1
    apply FileSystem.filter_files_putAll (q := fun m => (l.isPrefixOf m && l != m) &&
      isDocument excludes ((m.drop l.length).foldl FilePath.join p))
    intro m hm
    obtain ⟨q, hq⟩ := hws m hm
    obtain ⟨front, hfront⟩ := q.exists_components_fixed
    obtain ⟨parent, -, -, hplace⟩ := (Workspace.locate?_concat hfront).1 hq
    apply Bool.and_eq_false_imp.2
    intro hbelow
    rw [Bool.and_eq_true, List.isPrefixOf_iff_prefix, bne_iff_ne] at hbelow
    obtain ⟨hplaced, hne⟩ := hbelow
    rw [hplace] at hplaced hne ⊢
    -- The path by which the walk comes to the place ends in the name of a fixed form as well.
    rcases List.prefix_concat_iff.1 hplaced with heq | ⟨names, rfl⟩
    · exact absurd heq hne
    · rw [List.append_assoc, List.drop_left, List.foldl_append]
      exact not_isDocument_join_fixedName q _

theorem expand_putAll (hp : w.isDirectory p)
    (hsame : w.SameDirectories (w.putAll ws))
    (hws : ∀ m ∈ ws, ∃ q : FilePath, w.locate? q.fixed = some m.1 ∧
      ¬ w.fileSystem.isDirectory m.1) :
    expand (w.putAll ws) excludes p = expand w excludes p := by
  obtain ⟨l, hl, hdirectory⟩ := Workspace.isDirectory_iff.1 hp
  have hplace : ∀ m ∈ ws, l ≠ m.1 := by
    rintro m hm rfl
    obtain ⟨-, -, hfree⟩ := hws m hm
    exact hfree hdirectory
  have hfile : (w.putAll ws).isFile p = w.isFile p := by
    rw [Workspace.isFile, Workspace.isFile, Workspace.read?, Workspace.read?, hsame.locate?_eq, hl]
    split
    · rfl
    · exact congrArg Option.isSome (FileSystem.content?_putAll hplace)
  rw [expand, expand, hfile, hsame.isDirectory_eq,
    filter_walk_putAll hsame fun m hm => (hws m hm).imp fun q hq => hq.1]

theorem review_putAll (registry : Registry) (hsame : w.SameDirectories (w.putAll ws))
    (hws : ∀ m ∈ ws, w.locate? p ≠ some m.1) :
    review (w.putAll ws) registry p = review w registry p := by
  have hread : (w.putAll ws).read? p = w.read? p := by
    rw [Workspace.read?, Workspace.read?, hsame.locate?_eq]
    cases hl : w.locate? p with
    | none => rfl
    | some l =>
      have hplace : ∀ m ∈ ws, l ≠ m.1 := by
        rintro m hm rfl
        exact hws m hm hl
      split
      · rfl
      · exact FileSystem.content?_putAll hplace
  rw [review, review, Workspace.readText?, Workspace.readText?, hread]

/-- The files that a run writes when it fixes, in its order. -/
def writes (w : Workspace) (plan : Plan) (args : List FilePath) : List (Location × String) :=
  writtenAll w (reviews w plan args)

theorem process_eq (w : Workspace) (plan : Plan) (args : List FilePath) :
    process w plan true args =
      ((reviews w plan args).map fun r => ⟨r.1, (settle true w r.1 r.2).1⟩,
        w.putAll (writes w plan args)) :=
  settleAll_eq w (reviews w plan args)

theorem writes_eq (w : Workspace) (plan : Plan) (args : List FilePath) :
    writes w plan args = (documents w plan.excludes args).filterMap
      fun p => written? w p (review w plan.registry p) := by
  rw [writes, writtenAll, reviews, List.filterMap_map]
  rfl

theorem written?_of_fixAll {registry : Registry} {d : Document} {outcome : Outcome} {l : Location}
    (hread : w.readText? p = some d.print) (hdepth : d.tree.toJson.depth < Document.maxDepth)
    (hvalid : d.tree.spanViolation? = none)
    (hfix : registry.fixAll d.types.oracle d.tree = .ok outcome) (happlied : outcome.applied ≠ [])
    (hl : w.locate? p.fixed = some l) (hfree : ¬ w.fileSystem.isDirectory l) :
    written? w p (review w registry p) = some (l, (Document.mk outcome.tree d.types).print) := by
  have hreport : registry.report d.types.oracle d.tree ≠ [] := by
    intro hnil
    rw [Registry.fixAll_of_report_eq_nil hnil] at hfix
    cases hfix
    exact happlied rfl
  have hreview := Document.review_eq_ok.2 ⟨hvalid, outcome, hfix, rfl⟩
  rw [review_print registry hread hdepth, hreview]
  refine (written?_of_fixed ?_ (if_neg ?_)).trans (Workspace.placed?_eq_some.2 ⟨hl, hfree, rfl⟩)
  · rwa [List.isEmpty_map, List.isEmpty_iff]
  · rwa [List.isEmpty_iff]

theorem exists_of_mem_writes {m : Location × String} (h : m ∈ writes w plan args) :
    ∃ p ∈ documents w plan.excludes args, w.locate? p.fixed = some m.1 ∧
      ¬ w.fileSystem.isDirectory m.1 := by
  rw [writes_eq] at h
  obtain ⟨p, hp, hwritten⟩ := List.mem_filterMap.1 h
  exact ⟨p, hp, locate?_of_written? hwritten⟩

theorem mem_map_documents (hw : w.fileSystem.IsRegular) (hargs : w.AreDirectories args)
    {cs : List Component} :
    cs ∈ (documents w excludes args).map FilePath.components ↔
      ∃ a ∈ args, ∃ q ∈ w.walk a, isDocument excludes q ∧ q.components = cs := by
  rw [List.mem_map]
  constructor
  · rintro ⟨p, hp, rfl⟩
    obtain ⟨a, ha, hexpand⟩ := mem_of_mem_documents hp
    obtain ⟨hwalk, hdocument⟩ := (mem_expand_of_directory hw (hargs.isDirectory a ha)).1 hexpand
    exact ⟨a, ha, p, hwalk, hdocument, rfl⟩
  · rintro ⟨a, ha, q, hwalk, hdocument, rfl⟩
    have hexpand := (mem_expand_of_directory hw (hargs.isDirectory a ha)).2 ⟨hwalk, hdocument⟩
    exact exists_mem_documents ha hexpand

theorem map_documents_eq {args' : List FilePath} (h : ∀ a, a ∈ args' ↔ a ∈ args) :
    (documents w excludes args').map FilePath.components =
      (documents w excludes args).map FilePath.components := by
  have hsub {as bs : List FilePath} (hab : ∀ a ∈ as, a ∈ bs) {cs : List Component}
      (hcs : cs ∈ (documents w excludes as).map FilePath.components) :
      cs ∈ (documents w excludes bs).map FilePath.components := by
    obtain ⟨p, hp, rfl⟩ := List.mem_map.1 hcs
    obtain ⟨a, ha, hexpand⟩ := mem_of_mem_documents hp
    obtain ⟨q, hq, hcomponents⟩ := exists_mem_documents (hab a ha) hexpand
    exact List.mem_map.2 ⟨q, hq, hcomponents⟩
  apply FilePath.map_components_eq (pairwise_documents w excludes args')
    (pairwise_documents w excludes args)
  intro cs
  exact ⟨hsub fun a => (h a).1, hsub fun a => (h a).2⟩

theorem map_documents_eq_of_components (hw : w.fileSystem.IsRegular) (hargs : w.AreDirectories args)
    (hexcludes : excludes.IgnoresSpelling) {args' : List FilePath}
    (h : ∀ cs, cs ∈ args'.map FilePath.components ↔ cs ∈ args.map FilePath.components) :
    (documents w excludes args').map FilePath.components =
      (documents w excludes args).map FilePath.components := by
  have hargs' := hargs.of_components fun cs => (h cs).1
  have hsub {as bs : List FilePath} (has : w.AreDirectories as) (hbs : w.AreDirectories bs)
      (hab : ∀ cs, cs ∈ as.map FilePath.components → cs ∈ bs.map FilePath.components)
      {cs : List Component} (hcs : cs ∈ (documents w excludes as).map FilePath.components) :
      cs ∈ (documents w excludes bs).map FilePath.components := by
    obtain ⟨a, ha, q, hq, hdocument, rfl⟩ := (mem_map_documents hw has).1 hcs
    obtain ⟨b, hb, hcomponents⟩ := List.mem_map.1 (hab _ (List.mem_map_of_mem ha))
    obtain ⟨q', hq', heq⟩ := Workspace.exists_mem_walk hw hcomponents.symm hq
    refine (mem_map_documents hw hbs).2 ⟨b, hb, q', hq', ?_, heq⟩
    rwa [isDocument_congr hexcludes heq]
  apply FilePath.map_components_eq (pairwise_documents w excludes args')
    (pairwise_documents w excludes args)
  intro cs
  exact ⟨hsub hargs' hargs fun cs => (h cs).1, hsub hargs hargs' fun cs => (h cs).2⟩

theorem sameDirectories_putAll_writes : w.SameDirectories (w.putAll (writes w plan args)) :=
  sameDirectories_putAll_writtenAll w _

theorem documents_putAll_writes (hargs : w.AreDirectories args) :
    documents (w.putAll (writes w plan args)) plan.excludes args =
      documents w plan.excludes args := by
  have hexpand : ∀ a ∈ args, expand (w.putAll (writes w plan args)) plan.excludes a =
      expand w plan.excludes a := by
    intro a ha
    apply expand_putAll (hargs.isDirectory a ha) sameDirectories_putAll_writes
    intro m hm
    obtain ⟨p, -, hp⟩ := exists_of_mem_writes hm
    exact ⟨p, hp⟩
  rw [documents, documents, List.flatMap_congr hexpand]

theorem reviews_putAll_writes (hw : w.fileSystem.IsRegular) (hargs : w.AreDirectories args) :
    reviews (w.putAll (writes w plan args)) plan args = reviews w plan args := by
  rw [reviews, reviews, documents_putAll_writes hargs]
  apply List.map_congr_left
  intro p hp
  have hreview : review (w.putAll (writes w plan args)) plan.registry p =
      review w plan.registry p := by
    apply review_putAll plan.registry sameDirectories_putAll_writes
    intro m hm
    obtain ⟨q, hq, hfixed, -⟩ := exists_of_mem_writes hm
    exact (found_of_mem hw hargs hq).locate?_ne_fixed hargs (found_of_mem hw hargs hp) hfixed
  rw [hreview]

theorem writes_putAll_writes (hw : w.fileSystem.IsRegular) (hargs : w.AreDirectories args) :
    writes (w.putAll (writes w plan args)) plan args = writes w plan args := by
  rw [writes, reviews_putAll_writes hw hargs, writtenAll_congr sameDirectories_putAll_writes,
    ← writes]

theorem process_putAll_writes (hw : w.fileSystem.IsRegular) (hargs : w.AreDirectories args) :
    process (w.putAll (writes w plan args)) plan true args = process w plan true args := by
  have hagain : (w.putAll (writes w plan args)).putAll (writes w plan args) =
      w.putAll (writes w plan args) := by
    rw [Workspace.putAll, Workspace.putAll, FileSystem.putAll_putAll]
  rw [process_eq, process_eq, writes_putAll_writes hw hargs, reviews_putAll_writes hw hargs, hagain]
  simp only [settle_fst_congr sameDirectories_putAll_writes]

/-- The fixed form of a document has a place where no document stands, and which it shares with
those documents only whose stems cannot be told apart when they are decoded. -/
theorem exists_fixed_place (hw : w.fileSystem.IsRegular) (hargs : w.AreDirectories args)
    (hp : p ∈ documents w excludes args) :
    ∃ l, w.locate? p.fixed = some l ∧ ∀ q ∈ documents w excludes args,
      w.locate? q ≠ some l ∧ (w.locate? q.fixed = some l ↔ q.FixedAlike p) := by
  have hfound := found_of_mem hw hargs hp
  obtain ⟨l, hl⟩ := hfound.located
  have hfixed := Workspace.locate?_fixed hfound.isSome_fileName? hl
  refine ⟨_, hfixed, ?_⟩
  intro q hq
  have hother := found_of_mem hw hargs hq
  exact ⟨hfound.locate?_ne_fixed hargs hother hfixed,
    hfound.locate?_fixed_eq_iff hargs hother hfixed⟩

theorem eq_of_fixedAlike (hw : w.fileSystem.IsRegular) (hargs : w.AreDirectories args)
    {q : FilePath} {cs ds : List Char} (hp : p ∈ documents w excludes args)
    (hq : q ∈ documents w excludes args) (hpstem : p.stem = Utf8.encode cs)
    (hqstem : q.stem = Utf8.encode ds) (h : p.FixedAlike q) : p = q := by
  have hnodup := FilePath.nodup_components (pairwise_documents w excludes args)
  apply List.inj_on_of_nodup_map hnodup hp hq
  exact h.components_eq (extension?_of_isDocument (found_of_mem hw hargs hp).isDocument)
    (extension?_of_isDocument (found_of_mem hw hargs hq).isDocument) hpstem hqstem

/-- A run over directories processes each document below them once, in the order of the paths and
whatever the order of the arguments, and also whatever their spelling if no exclude pattern tells
spellings apart. No document stands where the fixed form of one goes. Two documents have their fixed
forms in one place just if they are in one directory and their stems are decoded to one text, so never
if both stems are texts. The run does the same when it is repeated on the files it wrote. -/
theorem process_directories (hw : w.fileSystem.IsRegular) (hargs : w.AreDirectories args)
    (plan : Plan) :
    let ps := documents w plan.excludes args
    let run := process w plan true args
    ps.Pairwise FilePath.Before ∧
      (∀ cs, cs ∈ ps.map FilePath.components ↔
        ∃ a ∈ args, ∃ q ∈ w.walk a, isDocument plan.excludes q ∧ q.components = cs) ∧
      (∀ args', (∀ a, a ∈ args' ↔ a ∈ args) →
        (documents w plan.excludes args').map FilePath.components = ps.map FilePath.components) ∧
      (plan.excludes.IgnoresSpelling → ∀ args',
        (∀ cs, cs ∈ args'.map FilePath.components ↔ cs ∈ args.map FilePath.components) →
        (documents w plan.excludes args').map FilePath.components = ps.map FilePath.components) ∧
      (∀ p ∈ ps, ∃ l, w.locate? p.fixed = some l ∧
        ∀ q ∈ ps, w.locate? q ≠ some l ∧ (w.locate? q.fixed = some l ↔ q.FixedAlike p)) ∧
      (∀ p ∈ ps, ∀ q ∈ ps, ∀ cs ds, p.stem = Utf8.encode cs → q.stem = Utf8.encode ds →
        p.FixedAlike q → p = q) ∧
      run.2 = w.putAll (writes w plan args) ∧
      documents run.2 plan.excludes args = ps ∧
      writes run.2 plan args = writes w plan args ∧
      process run.2 plan true args = run := by
  intro ps run
  have hrun : run.2 = w.putAll (writes w plan args) := congrArg Prod.snd (process_eq w plan args)
  refine ⟨pairwise_documents w plan.excludes args, fun cs => mem_map_documents hw hargs,
    fun args' => map_documents_eq,
    fun hexcludes args' => map_documents_eq_of_components hw hargs hexcludes,
    fun p => exists_fixed_place hw hargs,
    fun p hp q hq cs ds => eq_of_fixedAlike hw hargs hp hq, hrun, ?_⟩
  rw [hrun]
  exact ⟨documents_putAll_writes hargs, writes_putAll_writes hw hargs,
    process_putAll_writes hw hargs⟩

/-- Two documents with one text, one of them further down, and an old fixed form of the other. -/
def nested (text : String) : Workspace where
  fileSystem := {
    files := [(.ofTexts ["d", "a.json"], .text text), (.ofTexts ["d", "a.fixed.json"], .text ""),
      (.ofTexts ["d", "sub", "b.c.json"], .text text)]
    directories := [] }
  directory := []

theorem filterMap_pair {f : FilePath → Option (Location × String)} {p q : FilePath}
    {x y : Location × String} (hp : f p = some x) (hq : f q = some y) :
    [p, q].filterMap f = [x, y] := by
  rw [List.filterMap_cons_some hp, List.filterMap_cons_some hq, List.filterMap_nil]

/-- A directory and one below it stand for both documents once, however their paths are written, and
running again writes both fixed forms again. -/
theorem process_directories_nested :
    let d : Document := ⟨Node.tryGet, TypeTable.tryGet⟩
    let w := nested d.print
    let plan : Plan := ⟨.text, .builtin, ⟨[], []⟩⟩
    let args : List FilePath := [.ofText "d", .ofText "d/sub"]
    let first : FilePath := .ofText "d/a.json"
    let second : FilePath := .ofText "d/sub/b.c.json"
    let run := process w plan true args
    w.fileSystem.IsRegular ∧ w.AreDirectories args ∧
      documents w plan.excludes args = [first, second] ∧
      (documents w plan.excludes [.ofText "d/sub", .ofText "d//", .ofText "d"]).map
        FilePath.components = (documents w plan.excludes args).map FilePath.components ∧
      ¬ first.FixedAlike second ∧
      (∃ fixed, writes w plan args = [(.ofTexts ["d", "a.fixed.json"], fixed),
        (.ofTexts ["d", "sub", "b.c.fixed.json"], fixed)]) ∧
      process run.2 plan true args = run := by
  intro d w plan args first second run
  have hregular : w.fileSystem.IsRegular := ⟨by decide +kernel, by decide +kernel⟩
  have hargs : w.AreDirectories args := ⟨by decide +kernel, by decide +kernel, by decide +kernel⟩
  have hexpand : args.flatMap (expand w plan.excludes) = [first, second, second] := by
    decide +kernel
  have hdocuments : documents w plan.excludes args = [first, second] := by
    rw [documents_of_expand hexpand (by decide +kernel)]
    decide +kernel
  have hmembers : ∀ cs, cs ∈ [FilePath.ofText "d/sub", .ofText "d//", .ofText "d"].map
      FilePath.components ↔ cs ∈ args.map FilePath.components := by
    have hall : [FilePath.ofText "d/sub", .ofText "d//", .ofText "d"].map FilePath.components =
        [FilePath.ofText "d/sub", .ofText "d", .ofText "d"].map FilePath.components := by
      decide +kernel
    intro cs
    rw [hall]
    simp [args, or_comm]
  obtain ⟨-, -, -, hspelled, -, hapart, -, -, -, hrepeated⟩ := process_directories hregular hargs plan
  have hdifferent : ¬ first.FixedAlike second := by
    intro h
    have heq := hapart first (by rw [hdocuments]; exact List.mem_cons_self) second
      (by rw [hdocuments]; exact List.mem_cons_of_mem _ List.mem_cons_self)
      ['a'] ['b', '.', 'c'] (by decide +kernel) (by decide +kernel) h
    exact absurd heq (by decide +kernel)
  refine ⟨hregular, hargs, hdocuments,
    hspelled (Excludes.ignoresSpelling_of_files_eq_nil rfl) _ hmembers, hdifferent, ?_, hrepeated⟩
  obtain ⟨fixed, hwritten⟩ : ∃ fixed, ∀ p l, w.readText? p = some d.print →
      w.locate? p.fixed = some l → ¬ w.fileSystem.isDirectory l →
      written? w p (review w plan.registry p) = some (l, fixed) :=
    ⟨_, fun _ _ hread => written?_of_fixAll hread (by decide +kernel) (by decide +kernel)
      Registry.fixAll_tryGet (List.cons_ne_nil _ _)⟩
  have hfirst := hwritten first (.ofTexts ["d", "a.fixed.json"]) rfl (by decide +kernel)
    (by decide +kernel)
  have hsecond := hwritten second (.ofTexts ["d", "sub", "b.c.fixed.json"]) rfl (by decide +kernel)
    (by decide +kernel)
  refine ⟨fixed, ?_⟩
  rw [writes_eq, hdocuments]
  exact filterMap_pair hfirst hsecond

/-- Two documents in one directory. Their names are no texts, and decoding makes them alike. -/
def undecodable (first second : Document) : Workspace where
  fileSystem := {
    files := [([Utf8.encode ['d'], 0xFE :: Utf8.encode ".json".toList], .text first.print),
      ([Utf8.encode ['d'], 0xFF :: Utf8.encode ".json".toList], .text second.print)]
    directories := [] }
  directory := []

/-- Both documents are processed, and the fixed form of the second one is written over that of the
first one. Moreover, a document that an exclude pattern names is processed where its directory is
given once more with another separator behind it. -/
theorem process_directories_undecodable :
    let w := undecodable ⟨Node.tryGet, TypeTable.tryGet⟩ deepGet
    let plan : Plan := ⟨.text, .builtin, ⟨[], []⟩⟩
    let args : List FilePath := [.ofText "d"]
    let first := (FilePath.ofText "d").join (0xFE :: Utf8.encode ".json".toList)
    let second := (FilePath.ofText "d").join (0xFF :: Utf8.encode ".json".toList)
    w.fileSystem.IsRegular ∧ w.AreDirectories args ∧
      documents w plan.excludes args = [first, second] ∧ first.components ≠ second.components ∧
      first.fixed = second.fixed ∧
      (∃ l fixed fixed', w.locate? first.fixed = some l ∧ fixed ≠ fixed' ∧
        writes w plan args = [(l, fixed), (l, fixed')] ∧
        (process w plan true args).2.fileSystem.content? l = some (.text fixed')) ∧
      ∃ excludes, Excludes.ofPatterns ["d/a.json"] = .ok excludes ∧
        (nested "").fileSystem.IsRegular ∧ (nested "").AreDirectories [.ofText "d//", .ofText "d"] ∧
        documents (nested "") excludes [.ofText "d"] = [.ofText "d/sub/b.c.json"] ∧
        documents (nested "") excludes [.ofText "d//", .ofText "d"] =
          [.ofText "d//a.json", .ofText "d//sub/b.c.json"] := by
  intro w plan args first second
  have hdocuments : documents w plan.excludes args = [first, second] := by
    have hexpand : args.flatMap (expand w plan.excludes) = [first, second] := by decide +kernel
    rw [documents_of_expand hexpand (by decide +kernel)]
    decide +kernel
  have hl : w.locate? first.fixed = some [Utf8.encode ['d'], first.fixedName] := by decide +kernel
  have hfree : ¬ w.fileSystem.isDirectory [Utf8.encode ['d'], first.fixedName] := by decide +kernel
  obtain ⟨fixed, hfixed, hfirst⟩ : ∃ fixed : Document, fixed.tree.toJson.depth < Document.maxDepth ∧
      written? w first (review w plan.registry first) = some (_, fixed.print) :=
    ⟨_, by decide +kernel, written?_of_fixAll rfl (by decide +kernel) (by decide +kernel)
      Registry.fixAll_tryGet (List.cons_ne_nil _ _) hl hfree⟩
  obtain ⟨fixed', hfixed', hsecond⟩ : ∃ fixed : Document, Document.maxDepth ≤ fixed.tree.toJson.depth ∧
      written? w second (review w plan.registry second) = some (_, fixed.print) :=
    ⟨_, by decide +kernel, written?_of_fixAll rfl (by decide +kernel) (by decide +kernel)
      fixAll_deepGet (List.cons_ne_nil _ _) hl hfree⟩
  have hwrites : writes w plan args = [([Utf8.encode ['d'], first.fixedName], fixed.print),
      ([Utf8.encode ['d'], first.fixedName], fixed'.print)] := by
    rw [writes_eq, hdocuments]
    exact filterMap_pair hfirst hsecond
  -- Of the two fixed forms only the first can be read again, as the second nests too deeply.
  have hne : fixed.print ≠ fixed'.print := by
    intro heq
    have hread := Document.parse?_print fixed
    rw [if_pos hfixed, heq, Document.parse?_print, if_neg (Nat.not_lt.2 hfixed')] at hread
    cases hread
  have hlast : (process w plan true args).2.fileSystem.content?
      [Utf8.encode ['d'], first.fixedName] = some (.text fixed'.print) := by
    rw [process_eq, hwrites]
    exact FileSystem.content?_putAll_concat _ [_] _ _
  let excludes : Excludes := ⟨["d/a.json".toList.map .char], []⟩
  have honce : [FilePath.ofText "d"].flatMap (expand (nested "") excludes) =
      [.ofText "d/sub/b.c.json"] := by
    decide +kernel
  have htwice : [FilePath.ofText "d//", .ofText "d"].flatMap (expand (nested "") excludes) =
      [.ofText "d//a.json", .ofText "d//sub/b.c.json", .ofText "d/sub/b.c.json"] := by
    decide +kernel
  refine ⟨⟨by decide +kernel, by decide +kernel⟩,
    ⟨by decide +kernel, by decide +kernel, by decide +kernel⟩, hdocuments, by decide +kernel,
    by decide +kernel, ⟨_, _, _, hl, hne, hwrites, hlast⟩, excludes, by decide +kernel,
    ⟨by decide +kernel, by decide +kernel⟩,
    ⟨by decide +kernel, by decide +kernel, by decide +kernel⟩, ?_, ?_⟩
  · rw [documents_of_expand honce (by decide +kernel)]
    decide +kernel
  · rw [documents_of_expand htwice (by decide +kernel)]
    decide +kernel

end TreeLint.CommandLine
