import TreeLint.LineDiff
import TreeLint.Registry
import TreeLint.Report.Basic
import TreeLint.Text.Styled

namespace TreeLint

structure Printed where
  out : List String
  err : List String
deriving DecidableEq, Repr

namespace Printed

def nothing : Printed := ⟨[], []⟩

def toOut (lines : List String) : Printed := ⟨lines, []⟩

def toErr (lines : List String) : Printed := ⟨[], lines⟩

def append (p q : Printed) : Printed := ⟨p.out ++ q.out, p.err ++ q.err⟩

def concat (ps : List Printed) : Printed := ⟨ps.flatMap out, ps.flatMap err⟩

/-- Lines as one text, each with a line feed behind it. -/
def textOf (lines : List String) : String := String.join (lines.map (· ++ "\n"))

end Printed

namespace Report

variable (t : Terminal)

def severityStyle : Severity → Style
  | .error => .red
  | .warning => .yellow
  | .info => .blue

/-- A finding, and below it why it has no fix if that is so. -/
def findingLines (r : ReviewedFinding) : List String :=
  let f := r.finding
  ("  " ++ toString f.span ++ " " ++ t.paint (severityStyle f.severity) f.severity.label ++
    " [" ++ t.paint .cyan f.ruleId ++ "] " ++ f.message) ::
  (r.unfixable.map fun reason => "    " ++ t.paint .red "no fix:" ++ " " ++ reason).toList

/-- A line without the line feeds at its end. -/
def trimLine (line : List Char) : String :=
  String.ofList (line.reverse.dropWhile (· = '\n')).reverse

/-- The lines that show an edit. Kept lines are not shown. -/
def editLines : Edit (List Char) → List String
  | .keep _ => []
  | .delete line => ["  " ++ t.paint .red ("- " ++ trimLine line)]
  | .insert block => block.map fun line => "  " ++ t.paint .green ("+ " ++ trimLine line)

/-- The lines in which two renderings differ, behind an empty line. -/
def previewLines (before after : String) : List String :=
  if before = after then []
  else "" :: (LineDiff.between before after).flatMap (editLines t)

/-- What is printed for a document. Clean documents are mentioned in verbose reports only. -/
def documentText (cause : DocumentError → String) (verbose : Bool) (r : DocumentReport) : Printed :=
  let title := t.paint .bold r.path.display
  match r.result with
  | .clean => .toOut (if verbose then [r.path.display ++ ": No findings"] else [])
  | .listed findings before after =>
    .toOut (title :: findings.flatMap (findingLines t) ++ previewLines t before after ++ [""])
  | .fixed findings written =>
    let (unfixable, applied) := findings.partition fun f => f.unfixable.isSome
    .toOut (title ::
      ("  " ++ t.paint .green "OK" ++ " Applied " ++ toString applied.length ++
        " fix(es), wrote " ++ written.display) ::
      unfixable.flatMap (findingLines t) ++ [""])
  | .failed error =>
    .toErr [t.paint .yellow "Warning" ++ ": " ++ r.path.display ++ " - " ++
      error.message (cause error)]

def summaryText (fixing : Bool) (s : Summary) : Printed :=
  .toOut ([
    "",
    t.paint .heading "Summary",
    "  Files processed: " ++ toString s.documents,
    "  Files with findings: " ++ toString s.withFindings,
    "  Total findings: " ++ toString s.findings] ++
    (if 0 < s.errors then ["  Errors: " ++ toString s.errors] else []) ++
    if !fixing && 0 < s.findings then
      ["", t.paint .yellow "Run with --fix to apply changes"]
    else [])

def missingText (p : FilePath) : Printed :=
  .toErr [t.paint .yellow "Warning" ++ ": Path does not exist: " ++ p.display]

def errorText (message : String) : Printed := .toErr [t.paint .red "Error" ++ ": " ++ message]

/-- What a verbose report begins with. -/
def headerText (fixing : Bool) (ids : List String) : Printed :=
  .toOut [
    t.paint .bold "Mode" ++ ": " ++ if fixing then "fix" else "check",
    t.paint .bold "Rules" ++ ": " ++ ", ".intercalate ids,
    ""]

def rulesText (registry : Registry) : Printed :=
  .toOut (t.paint .bold "Available rules:" ::
    registry.rules.flatMap fun r =>
      ["  " ++ t.paint .green r.id ++ " - " ++ r.title, "      " ++ r.description])

end Report

end TreeLint
