import TreeLint.FilePath

namespace TreeLint

/-- A place in a file system: the names from the root down to it. -/
abbrev Location := List Bytes

def Location.ofTexts (names : List String) : Location :=
  names.map fun name => Utf8.encode name.toList

def Location.path (l : Location) : FilePath := ⟨slash :: [slash].intercalate l⟩

/-- What a file holds. A content that is not UTF-8 is no text. -/
inductive Content where
  | text (value : String)
  | binary
deriving DecidableEq, Repr

/-- Every directory around a file or a listed directory exists too. -/
structure FileSystem where
  files : List (Location × Content)
  directories : List Location
deriving DecidableEq, Repr

namespace FileSystem

def content? (fs : FileSystem) (l : Location) : Option Content := fs.files.lookup l

def isDirectory (fs : FileSystem) (l : Location) : Bool :=
  l.isEmpty || (fs.directories.any fun d => l.isPrefixOf d) ||
    fs.files.any fun f => l.isPrefixOf f.1 && l != f.1

/-- The files in a directory and below it, each by the names that lead to it from there. -/
def below (fs : FileSystem) (l : Location) : List Location :=
  (fs.files.filter fun f => l.isPrefixOf f.1 && l != f.1).map fun f => f.1.drop l.length

/-- The file system with a file written. A directory cannot be overwritten. -/
def write? (fs : FileSystem) (l : Location) (text : String) : Option FileSystem :=
  if fs.isDirectory l then none
  else
    let others := fs.files.filter fun f => f.1 != l
    some { fs with files := others ++ [(l, .text text)] }

/-- The texts of the files that are new or have another content than before. -/
def changes (before after : FileSystem) : List (Location × String) :=
  after.files.filterMap fun (l, content) =>
    match content with
    | .text text => if before.content? l = some content then none else some (l, text)
    | .binary => none

end FileSystem

/-- A file system seen from a working directory. -/
structure Workspace where
  fileSystem : FileSystem
  directory : Location
deriving DecidableEq, Repr

namespace Workspace

variable (w : Workspace)

/-- Follows a component of a path out of a directory. -/
def enter? (l : Location) : Component → Option Location
  | .root => some []
  | .current => if w.fileSystem.isDirectory l then some l else none
  | .parent => if w.fileSystem.isDirectory l then some l.dropLast else none
  | .normal name => if w.fileSystem.isDirectory l then some (l ++ [name]) else none

/-- The place that a path leads to, whether something stands there or not. -/
def locate? (p : FilePath) : Option Location := p.components.foldlM w.enter? w.directory

def isDirectory (p : FilePath) : Bool :=
  (w.locate? p).any fun l => w.fileSystem.isDirectory l

def read? (p : FilePath) : Option Content :=
  if p.endsAsDirectory then none
  else do w.fileSystem.content? (← w.locate? p)

def isFile (p : FilePath) : Bool := (w.read? p).isSome

def readText? (p : FilePath) : Option String :=
  match w.read? p with
  | some (.text text) => some text
  | _ => none

def walk (p : FilePath) : List FilePath :=
  match w.locate? p with
  | some l => (w.fileSystem.below l).map fun names => names.foldl FilePath.join p
  | none => []

def write? (p : FilePath) (text : String) : Option Workspace := do
  let l ← w.locate? p
  return { w with fileSystem := ← w.fileSystem.write? l text }

end Workspace

end TreeLint
