import TreeLint.Document
import TreeLint.FilePath

namespace TreeLint

inductive DocumentError where
  | unreadable (path : FilePath)
  | malformed (path : FilePath)
  | review (error : ReviewError)
  | unwritable (path : FilePath)
deriving DecidableEq, Repr

/-- The message of an error, with what the file system or the reader of documents says of its cause.
-/
def DocumentError.message (cause : String) : DocumentError → String
  | unreadable path => "Failed to read file: " ++ path.display ++ ": " ++ cause
  | malformed path => "Invalid syntax tree document: " ++ path.display ++ ": " ++ cause
  | review error => error.message
  | unwritable path => "Failed to write file: " ++ path.display ++ ": " ++ cause

/-- What became of a document: nothing was found in it; its findings are listed, with the tree
rendered before and after fixing; its fixed form was written; or there was an error. -/
inductive DocumentResult where
  | clean
  | listed (findings : List ReviewedFinding) (before after : String)
  | fixed (findings : List ReviewedFinding) (written : FilePath)
  | failed (error : DocumentError)
deriving DecidableEq, Repr

namespace DocumentResult

def findings : DocumentResult → List ReviewedFinding
  | clean => []
  | listed findings _ _ => findings
  | fixed findings _ => findings
  | failed _ => []

def error? : DocumentResult → Option DocumentError
  | failed error => some error
  | _ => none

end DocumentResult

structure DocumentReport where
  path : FilePath
  result : DocumentResult
deriving DecidableEq, Repr

structure Summary where
  documents : Nat
  withFindings : Nat
  findings : Nat
  errors : Nat
deriving DecidableEq, Repr

namespace Summary

def empty : Summary := ⟨0, 0, 0, 0⟩

def add (s : Summary) : DocumentResult → Summary
  | .clean => { s with documents := s.documents + 1 }
  | .listed findings _ _ | .fixed findings _ =>
    { s with
      documents := s.documents + 1
      withFindings := s.withFindings + if findings.isEmpty then 0 else 1
      findings := s.findings + findings.length }
  | .failed _ => { s with documents := s.documents + 1, errors := s.errors + 1 }

def ofReports (reports : List DocumentReport) : Summary :=
  reports.foldl (fun s r => s.add r.result) empty

/-- Errors come first; findings count only where they are not fixed. -/
def exitCode (fixing : Bool) (s : Summary) : Nat :=
  if 0 < s.errors then 1
  else if !fixing && 0 < s.findings then 2
  else 0

end Summary

def Summary.toJson (s : Summary) : Json :=
  .object [("files_processed", .int s.documents), ("files_with_findings", .int s.withFindings),
    ("total_findings", .int s.findings), ("errors", .int s.errors)]

section

variable (cause : DocumentError → String)

/-- Only a document with findings has a list of them, and only one with an error has that. -/
def DocumentReport.toJson (r : DocumentReport) : Json :=
  let findings := r.result.findings
  .object ([("path", .string r.path.display)] ++
    (if findings.isEmpty then []
      else [("findings", Json.array (findings.map ReviewedFinding.toJson))]) ++
    (r.result.error?.map fun error =>
      ("error", Json.string (error.message (cause error)))).toList)

def Report.toJson (version : String) (reports : List DocumentReport) : Json :=
  .object [("version", .string version), ("summary", (Summary.ofReports reports).toJson),
    ("files", .array (reports.map (DocumentReport.toJson cause)))]

end

end TreeLint
