import TreeLint.CommandLine.Invocation
import TreeLint.Configuration.Discovery
import TreeLint.Excludes
import TreeLint.Report.Text
import TreeLint.RuleSelection

namespace TreeLint.CommandLine

def programName : String := "sharpfix"

def programVersion : String := "0.1.0"

/-- Why a run ends before it comes to the documents. -/
inductive RunError where
  | configuration (error : ConfigurationError)
  | unknownFormat (name : String)
  | selection (error : SelectionError)
  | exclude (error : MalformedPattern)
deriving DecidableEq, Repr

/-- What the file system and the readers of documents, configurations and globs say of the causes of
errors. -/
structure Causes where
  configuration : ConfigurationError → String
  pattern : MalformedPattern → String
  document : DocumentError → String

def RunError.message (causes : Causes) : RunError → String
  | configuration error => error.message (causes.configuration error)
  | unknownFormat name =>
    "Invalid output format '" ++ name ++ "'. Valid options: text, json"
  | selection error => error.message
  | exclude error => error.message (causes.pattern error)

/-- What a run is to do, as its options and its configuration say. -/
structure Plan where
  format : OutputFormat
  registry : Registry
  excludes : Excludes

/-- The configuration that the options point to, or the nearest one. -/
def configurationOf (w : Workspace) (i : Invocation) :
    Except ConfigurationError Configuration :=
  if i.noConfig then .ok .empty
  else
    match i.config with
    | some path => Configuration.load w path
    | none =>
      (Configuration.discover w w.directory.path).map fun found =>
        (found.map Prod.snd).getD .empty

def formatOf (i : Invocation) (configuration : Configuration) : Except RunError OutputFormat :=
  if i.json then .ok .json
  else
    match i.format with
    | some name =>
      match OutputFormat.ofAnyCase? name with
      | some format => .ok format
      | none => .error (.unknownFormat name)
    | none => .ok (configuration.format.getD .text)

def planOf (w : Workspace) (i : Invocation) : Except RunError Plan := do
  let configuration ← (configurationOf w i).mapError .configuration
  let format ← formatOf i configuration
  let ids ← (configuration.rules.select Registry.builtin.ids i.rules).mapError .selection
  let excludes ← (Excludes.ofPatterns configuration.exclude).mapError .exclude
  return ⟨format, .enabling ids, excludes⟩

/-- The extension of the documents in a directory. -/
def documentExtension : Bytes := Utf8.encode "json".toList

/-- A file below a directory that is a document to process: it is not excluded and was not written
by an earlier run. -/
def isDocument (excludes : Excludes) (p : FilePath) : Bool :=
  p.extension? == some documentExtension && !p.isFixed && !excludes.covers p

/-- The documents that a path stands for: itself if it is a file, those below it if it is a
directory. -/
def expand (w : Workspace) (excludes : Excludes) (p : FilePath) : List FilePath :=
  if w.isFile p then [p]
  else if w.isDirectory p then (w.walk p).filter (isDocument excludes)
  else []

/-- The list without the paths whose components are those of the path before them. -/
def dropRepeats : List FilePath → List FilePath
  | [] => []
  | p :: ps => p :: dropAfter p ps
where
  dropAfter : FilePath → List FilePath → List FilePath
  | _, [] => []
  | p, q :: ps =>
    if p.components = q.components then dropAfter p ps else q :: dropAfter q ps

/-- The documents to process, each once, in the order of their paths. -/
def documents (w : Workspace) (excludes : Excludes) (paths : List FilePath) : List FilePath :=
  dropRepeats ((paths.flatMap (expand w excludes)).mergeSort FilePath.le)

def missing (w : Workspace) (paths : List FilePath) : List FilePath :=
  paths.filter fun p => !w.isFile p && !w.isDirectory p

def review (w : Workspace) (registry : Registry) (p : FilePath) : Except DocumentError Review :=
  match w.readText? p with
  | none => .error (.unreadable p)
  | some text =>
    match Document.parse? text with
    | none => .error (.malformed p)
    | some document => (document.review registry).mapError .review

/-- The findings of a review, reported and not acted on. -/
def listing (r : Review) : DocumentResult := .listed r.findings r.before r.after

/-- Writes the fixed form of a document, if there is one. -/
def writeFixed (w : Workspace) (p : FilePath) (r : Review) : DocumentResult × Workspace :=
  match r.fixed with
  | none => (listing r, w)
  | some document =>
    match w.write? p.fixed document.print with
    | some w => (.fixed r.findings p.fixed, w)
    | none => (.failed (.unwritable p.fixed), w)

/-- What becomes of a reviewed document. Where nothing was found, nothing is written. -/
def settle (fixing : Bool) (w : Workspace) (p : FilePath) :
    Except DocumentError Review → DocumentResult × Workspace
  | .error error => (.failed error, w)
  | .ok r =>
    if r.findings.isEmpty then (.clean, w)
    else if fixing then writeFixed w p r
    else (listing r, w)

/-- Reports reviewed documents one after the other, and writes the fixed ones. -/
def settleAll (fixing : Bool) (w : Workspace) :
    List (FilePath × Except DocumentError Review) → List DocumentReport × Workspace
  | [] => ([], w)
  | (p, reviewed) :: rest =>
    let (result, w) := settle fixing w p reviewed
    let (reports, w) := settleAll fixing w rest
    (⟨p, result⟩ :: reports, w)

/-- Processes the documents that paths stand for. All of them are reviewed as they were before the
first is written. -/
def process (w : Workspace) (plan : Plan) (fixing : Bool) (paths : List FilePath) :
    List DocumentReport × Workspace :=
  settleAll fixing w ((documents w plan.excludes paths).map fun p => (p, review w plan.registry p))

structure Result where
  exitCode : Nat
  printed : Printed
  workspace : Workspace
deriving DecidableEq, Repr

section

variable (causes : Causes) (t : Terminal)

def printReports (i : Invocation) (plan : Plan) (w : Workspace) (reports : List DocumentReport) :
    Printed :=
  match plan.format with
  | .json => .toOut [(Report.toJson causes.document programVersion reports).pretty]
  | .text =>
    .concat ([if i.verbose then Report.headerText t i.fix plan.registry.ids else .nothing] ++
      (missing w i.paths).map (Report.missingText t) ++
      reports.map (Report.documentText t causes.document i.verbose) ++
      [Report.summaryText t i.fix (Summary.ofReports reports)])

def runInvocation (w : Workspace) (i : Invocation) : Result :=
  if i.listRules then
    ⟨0, Report.rulesText t .builtin, w⟩
  else
    match planOf w i with
    | .error error => ⟨1, Report.errorText t (error.message causes), w⟩
    | .ok plan =>
      let (reports, after) := process w plan i.fix i.paths
      ⟨(Summary.ofReports reports).exitCode i.fix, printReports causes t i plan w reports, after⟩

def Command.run (w : Workspace) : Command → Result
  | .version => ⟨0, .toOut [programName ++ " " ++ programVersion], w⟩
  | .lint invocation => runInvocation causes t w invocation

end

end TreeLint.CommandLine
