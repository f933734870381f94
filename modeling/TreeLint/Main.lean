import TreeLint.CommandLine.Run

namespace TreeLint.CommandLine

/-- The place that a component leads to, by its name alone. -/
def followed (l : Location) : Component → Location
  | .root => []
  | .current => l
  | .parent => l.dropLast
  | .normal name => l ++ [name]

def placeOf (directory : Location) (p : FilePath) : Location :=
  p.components.foldl followed directory

/-- The content of a file on disk. One that cannot be read has no text. -/
def readContent (l : Location) : IO Content := do
  try
    let bytes ← IO.FS.readBinFile l.path.display
    return ((String.fromUTF8? bytes).map Content.text).getD .binary
  catch _ =>
    return .binary

def addFile (fs : FileSystem) (l : Location) : IO FileSystem := do
  return { fs with files := fs.files ++ [(l, ← readContent l)] }

/-- Adds a directory and the JSON files and directories in it to a file system. -/
partial def addDirectory (fs : FileSystem) (l : Location) : IO FileSystem := do
  let mut fs := { fs with directories := fs.directories ++ [l] }
  let entries ← try (← IO.FS.realPath l.path.display).readDir catch _ => pure #[]
  for entry in entries do
    let inside := l ++ [Utf8.encode entry.fileName.toList]
    match (← entry.path.symlinkMetadata).type with
    | .dir => fs ← addDirectory fs inside
    | .file =>
      if (Location.path inside).extension? == some documentExtension then
        fs ← addFile fs inside
    | _ => pure ()
  return fs

def addPlace (fs : FileSystem) (l : Location) : IO FileSystem := do
  try
    let place ← IO.FS.realPath l.path.display
    match (← place.metadata).type with
    | .dir => addDirectory fs l
    | .file => addFile fs l
    | _ => return fs
  catch _ =>
    return fs

def places (directory : Location) (i : Invocation) : List Location :=
  (i.paths ++ i.config.toList).map (placeOf directory) ++
    (Location.path directory).ancestors.map fun p =>
      placeOf directory (p.join Configuration.fileName)

/-- The part of the disk that a command is about. -/
def workspaceOf (directory : Location) : Command → IO Workspace
  | .version => return ⟨⟨[], [directory]⟩, directory⟩
  | .lint i => do
    let fs ← ((places directory i).eraseDups).foldlM addPlace ⟨[], [directory]⟩
    return ⟨fs, directory⟩

/-- What is said of the causes of errors, which the readers here do not tell. -/
def causes : Causes where
  configuration
    | .unreadable _ => "it cannot be read"
    | .malformed _ => "it is no configuration"
  pattern _ := "it is no glob"
  document
    | .unreadable _ => "it cannot be read"
    | .malformed _ | .review _ => "it is no document"
    | .unwritable _ => "it cannot be written"

def usage : String := "Usage: " ++ programName ++ " [OPTIONS] <PATHS>..."

def runCommand (words : List String) : IO UInt32 := do
  match Command.parse? words with
  | none =>
    IO.eprintln usage
    return 2
  | some command =>
    let directory := placeOf [] (.ofText (← IO.currentDir).toString)
    let w ← workspaceOf directory command
    let terminal := Terminal.detect (← (← IO.getStdout).isTty) (← IO.getEnv "CLICOLOR")
      (← IO.getEnv "CLICOLOR_FORCE") (← IO.getEnv "NO_COLOR")
    let result := command.run causes terminal w
    for (l, text) in w.fileSystem.changes result.workspace.fileSystem do
      IO.FS.writeFile l.path.display text
    IO.print (Printed.textOf result.printed.out)
    IO.eprint (Printed.textOf result.printed.err)
    return UInt32.ofNat result.exitCode

end TreeLint.CommandLine

def main (words : List String) : IO UInt32 := TreeLint.CommandLine.runCommand words
