import TreeLint.CommandLine.Run
import TreeLint.Proofs.AddedLevels
import TreeLint.Proofs.FixCounts
import TreeLint.Proofs.Reviewing
import TreeLint.Proofs.StoredDocuments
import TreeLint.Proofs.WrittenFiles

namespace TreeLint

namespace Document

variable {registry : Registry} {d fixed : Document} {review : Review}

theorem of_review_fixed (hreview : d.review registry = .ok review)
    (hfixed : review.fixed = some fixed) : d.tree.spanViolation? = none ∧ ∃ outcome,
      registry.fixAll d.types.oracle d.tree = .ok outcome ∧ fixed = ⟨outcome.tree, d.types⟩ ∧
        review.after = outcome.tree.render := by
  obtain ⟨hvalid, outcome, hfix, hshown⟩ := review_eq_ok.1 hreview
  subst hshown
  dsimp only at hfixed
  split at hfixed
  · cases hfixed
  · exact ⟨hvalid, outcome, hfix, (Option.some.inj hfixed).symm, rfl⟩

theorem spanViolation?_fixed (h : registry.IsBuiltin) (hreview : d.review registry = .ok review)
    (hfixed : review.fixed = some fixed) : fixed.tree.spanViolation? = none := by
  obtain ⟨hvalid, outcome, hfix, rfl, -⟩ := of_review_fixed hreview hfixed
  rw [Node.spanViolation?_eq_none_iff_spansNest] at hvalid ⊢
  exact h.spansNest_fixAll hvalid hfix

theorem depth_fixed_le (h : registry.IsBuiltin) (hreview : d.review registry = .ok review)
    (hfixed : review.fixed = some fixed) (hd : d.tree.StrictlyNested) {k : Nat}
    (hk : ∀ offset, depthAt (registry.report d.types.oracle d.tree) offset ≤ k) :
    fixed.tree.toJson.depth ≤ d.tree.toJson.depth + 8 * k := by
  obtain ⟨-, outcome, hfix, rfl, -⟩ := of_review_fixed hreview hfixed
  exact (h.progress_of_fixAll hd hfix).depth_le h hd hk

theorem exists_review_fixed (h : registry.IsBuiltin) (hreview : d.review registry = .ok review)
    (hfixed : review.fixed = some fixed)
    (htext : ∀ f ∈ review.findings, ¬ f.finding.span.isEmpty) :
    ∃ again, fixed.review registry = .ok again ∧ again.before = review.after := by
  have hvalidFixed := spanViolation?_fixed h hreview hfixed
  have hreported : ∀ f ∈ registry.report d.types.oracle d.tree, ¬ f.span.isEmpty := by
    obtain ⟨-, outcome, -, rfl⟩ := review_eq_ok.1 hreview
    intro f hf
    exact htext _ (List.mem_map_of_mem hf)
  obtain ⟨hvalid, outcome, hfix, rfl, hafter⟩ := of_review_fixed hreview hfixed
  rw [Node.spanViolation?_eq_none_iff_spansNest] at hvalid
  obtain ⟨outcome', hfix', htree⟩ :=
    h.exists_fixAll_reportsText hvalid (h.everywhere_reportsText hvalid hreported)
  rw [hfix] at hfix'
  cases hfix'
  have htextFixed : ∀ f ∈ registry.report d.types.oracle outcome.tree, ¬ f.span.isEmpty := by
    intro f hf hempty
    have hlt := h.span_nonempty_of_mem_report htree hf
    rw [beq_iff_eq.1 hempty] at hlt
    exact UInt32.lt_irrefl _ hlt
  obtain ⟨again, hagain⟩ := exists_review h hvalidFixed htextFixed
  obtain ⟨-, outcome', -, rfl⟩ := review_eq_ok.1 hagain
  exact ⟨_, hagain, hafter.symm⟩

end Document

namespace CommandLine

variable {registry : Registry} {w w' : Workspace} {p : FilePath} {r : Review} {d : Document}

theorem exists_document (h : review w registry p = .ok r) : ∃ start,
    (w.readText? p).bind Document.parse? = some start ∧ start.review registry = .ok r := by
  rw [review] at h
  split at h
  · cases h
  · rename_i text htext
    split at h
    · cases h
    · rename_i start hparse
      rw [htext, Option.bind_some]
      exact ⟨start, hparse, mapError_eq_ok.1 h⟩

/-- A printed document is reviewed as it is, unless its tree nests too deeply. -/
theorem review_print (registry : Registry) (hread : w.readText? p = some d.print)
    (hdepth : d.tree.toJson.depth < Document.maxDepth) :
    review w registry p = (d.review registry).mapError .review := by
  rw [review, hread]
  dsimp only
  rw [Document.parse?_print, if_pos hdepth]

theorem review_print_of_deep (registry : Registry) (hread : w.readText? p = some d.print)
    (hdepth : Document.maxDepth ≤ d.tree.toJson.depth) :
    review w registry p = .error (.malformed p) := by
  rw [review, hread]
  dsimp only
  rw [Document.parse?_print, if_neg (Nat.not_lt.2 hdepth)]

theorem readText?_written (hwrite : w.write? p.fixed d.print = some w') :
    w'.readText? p.fixed = some d.print :=
  Workspace.readText?_write? p.not_endsAsDirectory_fixed hwrite

/-- A fixed document that was written is read as the same document, without span violation, and can
be reviewed again unless there were findings without text; but it is refused as malformed when its
tree nests too deeply. Where the spans of the first tree nest strictly, the fixed one is at most
eight levels deeper for each of the findings around one offset. -/
theorem review_written (h : registry.IsBuiltin) (hreview : review w registry p = .ok r)
    (hfixed : r.fixed = some d) (hwrite : w.write? p.fixed d.print = some w') :
    ∃ start, (w.readText? p).bind Document.parse? = some start ∧
      (d.tree.toJson.depth < Document.maxDepth →
        (w'.readText? p.fixed).bind Document.parse? = some d ∧ d.tree.spanViolation? = none ∧
          ((∀ f ∈ r.findings, ¬ f.finding.span.isEmpty) →
            ∃ again, review w' registry p.fixed = .ok again ∧ again.before = r.after)) ∧
      (Document.maxDepth ≤ d.tree.toJson.depth →
        review w' registry p.fixed = .error (.malformed p.fixed)) ∧
      (start.tree.StrictlyNested → ∀ k,
        (∀ offset, depthAt (registry.report start.types.oracle start.tree) offset ≤ k) →
          d.tree.toJson.depth ≤ start.tree.toJson.depth + 8 * k) := by
  have hread := readText?_written hwrite
  obtain ⟨start, hparse, hstart⟩ := exists_document hreview
  refine ⟨start, hparse, ?_, ?_, ?_⟩
  · intro hdepth
    refine ⟨?_, Document.spanViolation?_fixed h hstart hfixed, ?_⟩
    · rw [hread, Option.bind_some, Document.parse?_print, if_pos hdepth]
    · intro htext
      obtain ⟨again, hagain, hbefore⟩ := Document.exists_review_fixed h hstart hfixed htext
      refine ⟨again, ?_, hbefore⟩
      rw [review_print registry hread hdepth]
      exact mapError_eq_ok.2 hagain
  · intro hdepth
    exact review_print_of_deep registry hread hdepth
  · intro hnested k hk
    exact Document.depth_fixed_le h hstart hfixed hnested hk

/-- A workspace with one document in its working directory. -/
def holding (d : Document) : Workspace := ⟨⟨[(.ofTexts ["a.json"], .text d.print)], []⟩, []⟩

theorem readText?_holding (d : Document) :
    (holding d).readText? (.ofText "a.json") = some d.print :=
  rfl

theorem exists_write?_holding (d : Document) (text : String) :
    ∃ w, (holding d).write? (FilePath.ofText "a.json").fixed text = some w := by
  have hfixed : (FilePath.ofText "a.json").fixed = .ofText "a.fixed.json" := by decide +kernel
  rw [hfixed]
  exact ⟨_, rfl⟩

theorem review_written_tryGet :
    let d : Document := ⟨Node.tryGet, TypeTable.tryGet⟩
    let p : FilePath := .ofText "a.json"
    ∃ w r fixed, review (holding d) .builtin p = .ok r ∧ r.fixed = some fixed ∧
      (holding d).write? p.fixed fixed.print = some w ∧
      (w.readText? p.fixed).bind Document.parse? = some fixed ∧
      (∃ again, review w .builtin p.fixed = .ok again ∧ again.before = r.after) ∧
      fixed.tree.toJson.depth ≤ d.tree.toJson.depth + 16 := by
  intro d p
  have hdocument := (Document.review_eq_ok (d := d)).2
    ⟨by decide +kernel, _, Registry.fixAll_tryGet, rfl⟩
  have hreview := review_print .builtin (readText?_holding d) (by decide +kernel)
  rw [hdocument] at hreview
  obtain ⟨w, hwrite⟩ := exists_write?_holding d _
  obtain ⟨start, hstart, hread, -, hlevels⟩ :=
    review_written Registry.isBuiltin_builtin hreview rfl hwrite
  obtain ⟨hparse, -, hagain⟩ := hread (by decide +kernel)
  rw [readText?_holding, Option.bind_some, Document.parse?_print, if_pos (by decide +kernel)]
    at hstart
  cases hstart
  have hreport : (Registry.builtin.report d.types.oracle d.tree).length ≤ 2 := by decide +kernel
  have hlevels := hlevels (by decide +kernel) 2 fun _ => List.countP_le_length.trans hreport
  exact ⟨w, _, _, hreview, rfl, hwrite, hparse, hagain (by decide +kernel), hlevels⟩

/-- The chain `a.b.b … .b` with so many members up to an offset. -/
def memberChain : Nat → UInt32 → Node
  | 0, stop => ⟨⟨22, stop⟩, .identifier "a"⟩
  | k + 1, stop => ⟨⟨22, stop⟩, .memberAccess (memberChain k (stop - 2)) "b"⟩

/-- The method `int TryGet() { return a.b.b … .b; }` with 120 members in what it returns. -/
def deepGet : Document where
  tree := ⟨⟨0, 265⟩, .methodDecl [] ⟨⟨0, 3⟩, .typeRef (.predefined .int)⟩ "TryGet" []
    ⟨⟨13, 265⟩, .block [⟨⟨15, 265⟩, .returnStmt (some (memberChain 120 263))⟩]⟩⟩
  types := .empty

set_option maxRecDepth 20000 in
theorem fixAll_deepGet :
    let method := TryMethod.rule.findingAt deepGet.tree.span
    Registry.builtin.fixAll deepGet.types.oracle deepGet.tree =
      .ok ⟨deepGet.tree.fixing [method], [method], [], []⟩ := by
  cbv

/-- A method that returns 120 members deep can be read, and its fixed form is not read again. -/
theorem deepGet_refused :
    let p : FilePath := .ofText "a.json"
    ∃ w r fixed, review (holding deepGet) .builtin p = .ok r ∧ r.fixed = some fixed ∧
      (holding deepGet).write? p.fixed fixed.print = some w ∧
      review w .builtin p.fixed = .error (.malformed p.fixed) := by
  intro p
  have hdocument := Document.review_eq_ok.2 ⟨by decide +kernel, _, fixAll_deepGet, rfl⟩
  have hreview := review_print .builtin (readText?_holding deepGet)
    (by decide +kernel)
  rw [hdocument] at hreview
  obtain ⟨w, hwrite⟩ := exists_write?_holding deepGet _
  exact ⟨w, _, _, hreview, rfl, hwrite,
    review_print_of_deep .builtin (readText?_written hwrite) (by decide +kernel)⟩

end CommandLine

end TreeLint
