import TreeLint.Configuration
import TreeLint.FileSystem

namespace TreeLint

inductive ConfigurationError where
  | unreadable (path : FilePath)
  | malformed (path : FilePath)
deriving DecidableEq, Repr

/-- The message of an error, with what the file system or the reader says of its cause. -/
def ConfigurationError.message (cause : String) : ConfigurationError → String
  | unreadable path => "Failed to read " ++ path.display ++ ": " ++ cause
  | malformed path => "Failed to parse " ++ path.display ++ ": " ++ cause

namespace Configuration

def fileName : Bytes := Utf8.encode ".sharpfix.toml".toList

def load (w : Workspace) (p : FilePath) : Except ConfigurationError Configuration :=
  match w.readText? p with
  | none => .error (.unreadable p)
  | some text =>
    match parse? text with
    | none => .error (.malformed p)
    | some configuration => .ok configuration

/-- The nearest configuration file at or above a directory. -/
def nearest? (w : Workspace) (start : FilePath) : Option FilePath :=
  (start.ancestors.map fun directory => directory.join fileName).find? w.isFile

/-- The nearest configuration at or above a directory, with the path of its file. -/
def discover (w : Workspace) (start : FilePath) :
    Except ConfigurationError (Option (FilePath × Configuration)) :=
  match nearest? w start with
  | none => .ok none
  | some p => (load w p).map fun configuration => some (p, configuration)

end Configuration

end TreeLint
