import TreeLint.FilePath
import TreeLint.Glob

namespace TreeLint

/-- The globs of the patterns that do not end in `/`, for file names and for whole paths, and of
those that do, for directory names. Everything below such a directory is excluded. -/
structure Excludes where
  files : List Glob
  directories : List Glob
deriving DecidableEq, Repr

/-- A pattern that is no glob, as it was given. -/
structure MalformedPattern where
  pattern : String
deriving DecidableEq, Repr

/-- The message of an error, with what the reader of globs says of its cause. -/
def MalformedPattern.message (cause : String) (e : MalformedPattern) : String :=
  "Invalid exclude pattern '" ++ e.pattern ++ "': " ++ cause

namespace Excludes

/-- The text of a pattern without the separator at its end, and whether there was one. -/
def splitPattern (pattern : String) : String × Bool :=
  let cs := pattern.toList
  if cs.getLast? = some '/' then (String.ofList cs.dropLast, true) else (pattern, false)

/-- The globs of patterns, or the first pattern that is malformed. -/
def ofPatterns : List String → Except MalformedPattern Excludes
  | [] => .ok ⟨[], []⟩
  | pattern :: patterns =>
    let (text, forDirectories) := splitPattern pattern
    match Glob.parse? text with
    | none => .error ⟨pattern⟩
    | some glob => do
      let excludes ← ofPatterns patterns
      return if forDirectories then
        { excludes with directories := glob :: excludes.directories }
      else
        { excludes with files := glob :: excludes.files }

/-- A file glob stands for the path as it is written, if that is a text, or for the file name. -/
def coversFile (excludes : Excludes) (p : FilePath) : Bool :=
  excludes.files.any fun glob =>
    (Utf8.decode? p.text).any glob.covers ||
      p.fileName?.any fun name => glob.covers (Utf8.decode name)

def coversDirectory (excludes : Excludes) : Component → Bool
  | .normal name => excludes.directories.any fun glob => glob.covers (Utf8.decode name)
  | _ => false

/-- The path is excluded, or a directory that it is in. -/
def covers (excludes : Excludes) (p : FilePath) : Bool :=
  excludes.coversFile p || p.parentComponents.any excludes.coversDirectory

end Excludes

end TreeLint
