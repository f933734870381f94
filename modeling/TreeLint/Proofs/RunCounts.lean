import Mathlib.Algebra.GroupWithZero.Nat
import TreeLint.Proofs.PathOrder
import TreeLint.Proofs.WrittenDocuments

namespace TreeLint

namespace DocumentResult

theorem findings_of_error? {r : DocumentResult} (h : r.error?.isSome) : r.findings = [] := by
  cases r with
  | clean => rfl
  | listed => cases h
  | fixed => cases h
  | failed => rfl

end DocumentResult

namespace Summary

theorem add_eq (s : Summary) (r : DocumentResult) :
    s.add r = ⟨s.documents + 1, s.withFindings + (if r.findings.isEmpty then 0 else 1),
      s.findings + r.findings.length, s.errors + (if r.error?.isSome then 1 else 0)⟩ := by
  cases r with
  | clean => rfl
  | listed => rfl
  | fixed => rfl
  | failed => rfl

theorem foldl_add (s : Summary) (reports : List DocumentReport) :
    reports.foldl (fun s r => s.add r.result) s =
      ⟨s.documents + reports.length,
        s.withFindings + reports.countP fun r => !r.result.findings.isEmpty,
        s.findings + (reports.map fun r => r.result.findings.length).sum,
        s.errors + reports.countP fun r => r.result.error?.isSome⟩ := by
  induction reports generalizing s with
  | nil => rfl
  | cons r reports ih =>
    rw [List.foldl_cons, ih, add_eq, List.countP_cons, List.countP_cons, List.map_cons,
      List.sum_cons, List.length_cons]
    dsimp only
    rw [Summary.mk.injEq]
    refine ⟨by omega, ?_, by omega, by omega⟩
    cases r.result.findings.isEmpty with
    | true => simp
    | false => simp; omega

theorem ofReports_eq (reports : List DocumentReport) :
    ofReports reports =
      ⟨reports.length, reports.countP fun r => !r.result.findings.isEmpty,
        (reports.map fun r => r.result.findings.length).sum,
        reports.countP fun r => r.result.error?.isSome⟩ := by
  rw [ofReports, foldl_add, empty]
  simp only [Nat.zero_add]

end Summary

namespace Json

/-- The items of the array at a name, and none where there is no array. -/
def itemsAt (name : String) (j : Json) : List Json :=
  match j.field? name with
  | some (.array items) => items
  | _ => []

def countAt? (name : String) (j : Json) : Option Nat :=
  match j.field? name with
  | some (.int n) => some n.toNat
  | _ => none

end Json

section

variable (cause : DocumentError → String)

namespace DocumentReport

theorem field?_path (r : DocumentReport) :
    (r.toJson cause).field? "path" = some (.string r.path.display) := rfl

theorem field?_findings (r : DocumentReport) :
    (r.toJson cause).field? "findings" = if r.result.findings.isEmpty then none
      else some (.array (r.result.findings.map ReviewedFinding.toJson)) := by
  rw [toJson]
  cases r.result.findings.isEmpty with
  | true =>
    cases r.result.error? with
    | none => rfl
    | some error => rfl
  | false => rfl

theorem field?_error (r : DocumentReport) :
    (r.toJson cause).field? "error" =
      r.result.error?.map fun error => .string (error.message (cause error)) := by
  rw [toJson]
  cases r.result.findings.isEmpty with
  | true =>
    cases r.result.error? with
    | none => rfl
    | some error => rfl
  | false =>
    cases r.result.error? with
    | none => rfl
    | some error => rfl

theorem itemsAt_findings (r : DocumentReport) :
    (r.toJson cause).itemsAt "findings" = r.result.findings.map ReviewedFinding.toJson := by
  rw [Json.itemsAt, field?_findings]
  cases r.result.findings with
  | nil => rfl
  | cons f fs => rfl

end DocumentReport

namespace Report

/-- The entries of the documents in a report. -/
def entries (report : Json) : List Json := report.itemsAt "files"

/-- How many entries have findings. -/
def withFindings (report : Json) : Nat :=
  (entries report).countP fun entry => !(entry.itemsAt "findings").isEmpty

/-- How many findings there are in all entries. -/
def listed (report : Json) : Nat :=
  ((entries report).map fun entry => (entry.itemsAt "findings").length).sum

/-- How many entries have an error. -/
def failures (report : Json) : Nat :=
  (entries report).countP fun entry => (entry.field? "error").isSome

/-- The count with a name in the summary of a report. -/
def count? (name : String) (report : Json) : Option Nat :=
  (report.field? "summary").bind (Json.countAt? name)

/-- The summary of the report counts its entries, and the exit code of the run follows from them. -/
structure Consistent (fixing : Bool) (report : Json) (exitCode : Nat) : Prop where
  documents : count? "files_processed" report = some (entries report).length
  withFindings : count? "files_with_findings" report = some (withFindings report)
  findings : count? "total_findings" report = some (listed report)
  errors : count? "errors" report = some (failures report)
  apart : ∀ entry ∈ entries report, (entry.field? "error").isSome → entry.field? "findings" = none
  exitCode : exitCode =
    if 0 < failures report then 1 else if fixing = false ∧ 0 < listed report then 2 else 0

variable (version : String) (reports : List DocumentReport)

theorem entries_toJson :
    entries (toJson cause version reports) = reports.map (DocumentReport.toJson cause) := rfl

theorem withFindings_toJson : withFindings (toJson cause version reports) =
    reports.countP fun r => !r.result.findings.isEmpty := by
  rw [withFindings, entries_toJson, List.countP_map]
  apply List.countP_congr
  intro r _
  rw [Function.comp_apply, DocumentReport.itemsAt_findings, List.isEmpty_map]

theorem listed_toJson : listed (toJson cause version reports) =
    (reports.map fun r => r.result.findings.length).sum := by
  rw [listed, entries_toJson, List.map_map]
  apply congrArg List.sum
  apply List.map_congr_left
  intro r _
  rw [Function.comp_apply, DocumentReport.itemsAt_findings, List.length_map]

theorem failures_toJson : failures (toJson cause version reports) =
    reports.countP fun r => r.result.error?.isSome := by
  rw [failures, entries_toJson, List.countP_map]
  apply List.countP_congr
  intro r _
  rw [Function.comp_apply, DocumentReport.field?_error, Option.isSome_map]

theorem consistent_toJson (fixing : Bool) :
    Consistent fixing (toJson cause version reports) ((Summary.ofReports reports).exitCode fixing) := by
  have hsummary := Summary.ofReports_eq reports
  constructor
  · change some (Int.toNat (Summary.ofReports reports).documents) = _
    rw [hsummary, entries_toJson, List.length_map]
    rfl
  · change some (Int.toNat (Summary.ofReports reports).withFindings) = _
    rw [hsummary, withFindings_toJson]
    rfl
  · change some (Int.toNat (Summary.ofReports reports).findings) = _
    rw [hsummary, listed_toJson]
    rfl
  · change some (Int.toNat (Summary.ofReports reports).errors) = _
    rw [hsummary, failures_toJson]
    rfl
  · intro entry hentry herror
    rw [entries_toJson] at hentry
    obtain ⟨r, -, rfl⟩ := List.mem_map.1 hentry
    rw [DocumentReport.field?_error, Option.isSome_map] at herror
    rw [DocumentReport.field?_findings, DocumentResult.findings_of_error? herror]
    rfl
  · rw [hsummary, listed_toJson, failures_toJson, Summary.exitCode]
    cases fixing with
    | true => simp
    | false => simp

end Report

end

namespace CommandLine

variable {w : Workspace} {p : FilePath} {reviewed : Except DocumentError Review} {fixing : Bool}

/-- The findings of a reviewed document, or the error that stopped it: that of its review, or that
its fixed form cannot be written. -/
def outcome (fixing : Bool) (w : Workspace) (p : FilePath) :
    Except DocumentError Review → List ReviewedFinding × Option DocumentError
  | .error error => ([], some error)
  | .ok r =>
    if fixing && !r.findings.isEmpty && r.fixed.any fun d => (w.write? p.fixed d.print).isNone then
      ([], some (.unwritable p.fixed))
    else (r.findings, none)

/-- The entry has the path of the document and tells its outcome. -/
structure Describes (cause : DocumentError → String) (p : FilePath)
    (outcome : List ReviewedFinding × Option DocumentError) (entry : Json) : Prop where
  path : entry.field? "path" = some (.string p.display)
  findings : entry.itemsAt "findings" = outcome.1.map ReviewedFinding.toJson
  error : entry.field? "error" =
    outcome.2.map fun error => .string (error.message (cause error))

theorem settle_outcome (fixing : Bool) (w : Workspace) (p : FilePath)
    (reviewed : Except DocumentError Review) :
    ((settle fixing w p reviewed).1.findings, (settle fixing w p reviewed).1.error?) =
      outcome fixing w p reviewed := by
  cases reviewed with
  | error => rfl
  | ok r =>
    rw [settle, outcome]
    cases hempty : r.findings.isEmpty with
    | true =>
      rw [if_pos rfl, Bool.not_true, Bool.and_false, Bool.false_and, if_neg Bool.false_ne_true,
        List.isEmpty_iff.1 hempty]
      rfl
    | false =>
      rw [if_neg Bool.false_ne_true]
      cases fixing with
      | false => rfl
      | true =>
        rw [if_pos rfl, writeFixed]
        cases r.fixed with
        | none => rfl
        | some d =>
          dsimp only
          rw [Option.any_some]
          cases w.write? p.fixed d.print with
          | none => rfl
          | some w' => rfl

theorem settle_check_snd (w : Workspace) (p : FilePath) (reviewed : Except DocumentError Review) :
    (settle false w p reviewed).2 = w := by
  cases reviewed with
  | error => rfl
  | ok r =>
    rw [settle]
    split
    · rfl
    · rfl

/-- Every document is reported as if it were the only one. -/
theorem settleAll_fst (fixing : Bool) (w : Workspace)
    (reviews : List (FilePath × Except DocumentError Review)) :
    (settleAll fixing w reviews).1 =
      reviews.map fun r => ⟨r.1, (settle fixing w r.1 r.2).1⟩ := by
  cases fixing with
  | true => rw [settleAll_eq]
  | false =>
    induction reviews with
    | nil => rfl
    | cons r reviews ih => rw [settleAll_cons, settle_check_snd, ih, List.map_cons]

theorem describes_settle (cause : DocumentError → String) (fixing : Bool) (w : Workspace)
    (p : FilePath) (reviewed : Except DocumentError Review) :
    Describes cause p (outcome fixing w p reviewed)
      (DocumentReport.toJson cause ⟨p, (settle fixing w p reviewed).1⟩) := by
  rw [← settle_outcome]
  exact ⟨DocumentReport.field?_path cause _, DocumentReport.itemsAt_findings cause _,
    DocumentReport.field?_error cause _⟩

theorem forall₂_describes (cause : DocumentError → String) (fixing : Bool) (w : Workspace)
    (reviews : List (FilePath × Except DocumentError Review)) :
    List.Forall₂ (fun r entry => Describes cause r.1 (outcome fixing w r.1 r.2) entry) reviews
      (Report.entries (Report.toJson cause programVersion (settleAll fixing w reviews).1)) := by
  rw [Report.entries_toJson, settleAll_fst, List.map_map, List.forall₂_map_right_iff,
    List.forall₂_same]
  intro r _
  exact describes_settle cause fixing w r.1 r.2

theorem runInvocation_eq {causes : Causes} {t : Terminal} {i : Invocation} {plan : Plan}
    (hlist : i.listRules = false) (hplan : planOf w i = .ok plan) :
    let settled := settleAll i.fix w (reviews w plan i.paths)
    runInvocation causes t w i =
      ⟨(Summary.ofReports settled.1).exitCode i.fix, printReports causes t i plan w settled.1,
        settled.2⟩ := by
  rw [runInvocation, hlist, if_neg Bool.false_ne_true, hplan]
  rfl

/-- The report of a run has an entry for each document, in order, that tells its outcome; its
summary counts these entries, and the exit code follows from them. This is so for every list of
reviewed documents, and a run that comes to its documents takes them in the order of their paths and
prints this report where JSON is asked for. -/
theorem report_consistent :
    (∀ cause fixing w reviews,
      let reports := (settleAll fixing w reviews).1
      let report := Report.toJson cause programVersion reports
      List.Forall₂ (fun r entry => Describes cause r.1 (outcome fixing w r.1 r.2) entry) reviews
          (Report.entries report) ∧
        Report.Consistent fixing report ((Summary.ofReports reports).exitCode fixing)) ∧
    ∀ causes t w i plan, i.listRules = false → planOf w i = .ok plan →
      let reviewed := reviews w plan i.paths
      let run := runInvocation causes t w i
      (reviewed.map Prod.fst).Pairwise FilePath.Before ∧
        ∃ report,
          List.Forall₂
            (fun r entry => Describes causes.document r.1 (outcome i.fix w r.1 r.2) entry) reviewed
            (Report.entries report) ∧
          Report.Consistent i.fix report run.exitCode ∧
          (plan.format = .json → run.printed = .toOut [report.pretty]) := by
  have hall (cause : DocumentError → String) (fixing : Bool) (w : Workspace)
      (reviews : List (FilePath × Except DocumentError Review)) :=
    And.intro (forall₂_describes cause fixing w reviews)
      (Report.consistent_toJson cause programVersion (settleAll fixing w reviews).1 fixing)
  refine ⟨hall, ?_⟩
  intro causes t w i plan hlist hplan reviewed run
  obtain ⟨hdescribes, hconsistent⟩ := hall causes.document i.fix w reviewed
  have hrun : run = _ := runInvocation_eq hlist hplan
  rw [hrun]
  refine ⟨?_, _, hdescribes, hconsistent, ?_⟩
  · rw [map_fst_reviews]
    exact pairwise_documents w plan.excludes _
  · intro hformat
    rw [printReports, hformat]

theorem report_consistent_unreadable :
    let files := [(Location.ofTexts ["a.json"], .text "tree"), (.ofTexts ["b.json"], .binary)]
    let w : Workspace := ⟨⟨files, []⟩, []⟩
    let i : Invocation := Invocation.ofArguments
      [.flag .json, .flag .noConfig, .path "a.json", .path "b.json"]
    let run := runInvocation ⟨fun _ => "", fun _ => "", fun _ => "not a tree"⟩ ⟨false⟩ w i
    ∃ plan report, planOf w i = .ok plan ∧ Report.failures report = 2 ∧
      Report.Consistent false report run.exitCode ∧ run.exitCode = 1 ∧
      run.printed = .toOut [report.pretty] := by
  intro files w i run
  have hplan : planOf w i = .ok
      ⟨.json, .enabling (RuleSettings.canonical Registry.builtin.ids), ⟨[], []⟩⟩ := rfl
  obtain ⟨-, report, hdescribes, hconsistent, hprinted⟩ :=
    report_consistent.2 ⟨fun _ => "", fun _ => "", fun _ => "not a tree"⟩ ⟨false⟩ w i _ rfl hplan
  have hdocuments : documents w ⟨[], []⟩ i.paths = [.ofText "a.json", .ofText "b.json"] := by
    have hexpand : i.paths.flatMap (expand w ⟨[], []⟩) = [.ofText "a.json", .ofText "b.json"] := by
      decide +kernel
    rw [documents_of_expand hexpand (by decide +kernel)]
    decide +kernel
  have hfirst (registry : Registry) :
      review w registry (.ofText "a.json") = .error (.malformed (.ofText "a.json")) := rfl
  have hsecond (registry : Registry) :
      review w registry (.ofText "b.json") = .error (.unreadable (.ofText "b.json")) := rfl
  rw [reviews, hdocuments, List.map_cons, List.map_cons, List.map_nil, hfirst, hsecond]
    at hdescribes
  obtain ⟨first, others, hfirst, hothers, hentries⟩ := List.forall₂_cons_left_iff.1 hdescribes
  obtain ⟨second, _, hsecond, hnone, rfl⟩ := List.forall₂_cons_left_iff.1 hothers
  cases hnone
  have hfailures : Report.failures report = 2 := by
    rw [Report.failures, hentries, List.countP_cons, List.countP_cons, hfirst.error, hsecond.error]
    rfl
  have hexit := hconsistent.exitCode
  rw [hfailures] at hexit
  exact ⟨_, report, hplan, hfailures, hconsistent, hexit, hprinted rfl⟩

end CommandLine

end TreeLint
