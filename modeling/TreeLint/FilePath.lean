import TreeLint.Text.Utf8

namespace TreeLint

/-- One component of a path. Only a `.` at the start of a path is one. -/
inductive Component where
  | root
  | current
  | parent
  | normal (name : Bytes)
deriving DecidableEq, Repr

namespace Component

def rank : Component → Nat
  | root => 0
  | current => 1
  | parent => 2
  | normal _ => 3

def lt : Component → Component → Bool
  | normal a, normal b => decide (a < b)
  | a, b => decide (a.rank < b.rank)

def listLe : List Component → List Component → Bool
  | [], _ => true
  | _ :: _, [] => false
  | a :: as, b :: bs => if a = b then listLe as bs else a.lt b

end Component

/-- The byte between the components of a path. -/
def slash : UInt8 := 47

/-- The byte in front of an extension. -/
def point : UInt8 := 46

/-- The segments of a text between the separators in it. -/
def splitSlash : Bytes → List Bytes
  | [] => [[]]
  | b :: bs =>
    if b = slash then
      [] :: splitSlash bs
    else
      match splitSlash bs with
      | s :: ss => (b :: s) :: ss
      | [] => [[b]]

/-- A file path as it is written. Repeated and closing separators and inner `.` components make no
difference to its components. -/
structure FilePath where
  text : Bytes
deriving DecidableEq, Repr

namespace FilePath

def ofText (text : String) : FilePath := ⟨Utf8.encode text.toList⟩

/-- The path as it is shown. Where it is no text, some of its bytes are not shown. -/
def display (p : FilePath) : String := String.ofList (Utf8.decode p.text)

/-- The component that a segment stands for behind the first one. -/
def innerComponent? (segment : Bytes) : Option Component :=
  if segment = [] ∨ segment = [point] then none
  else if segment = [point, point] then some .parent
  else some (.normal segment)

/-- The components of the segments behind a text, each with the text up to its end. -/
def innerPieces (before : Bytes) : List Bytes → List (Component × Bytes)
  | [] => []
  | s :: ss =>
    let upTo := before ++ slash :: s
    (innerComponent? s).toList.map (·, upTo) ++ innerPieces upTo ss

/-- The components of a path, each with the text of the path up to its end. -/
def pieces (p : FilePath) : List (Component × Bytes) :=
  match splitSlash p.text with
  | [] => []
  | s :: ss =>
    if s = [] then
      if ss = [] then [] else (.root, [slash]) :: innerPieces [] ss
    else if s = [point] then (.current, s) :: innerPieces s ss
    else (innerComponent? s).toList.map (·, s) ++ innerPieces s ss

def components (p : FilePath) : List Component := p.pieces.map Prod.fst

/-- The components are in order, compared one by one. -/
def le (p q : FilePath) : Bool := Component.listLe p.components q.components

/-- The last component, when it is a name. -/
def fileName? (p : FilePath) : Option Bytes :=
  match p.components.getLast? with
  | some (.normal name) => some name
  | _ => none

/-- The text in front of the last component, without the separator. -/
def parentText (p : FilePath) : Bytes :=
  match p.pieces.dropLast.getLast? with
  | some (_, text) => text
  | none => []

/-- The components of the directory that a path is in. The root is in none. -/
def parentComponents (p : FilePath) : List Component :=
  match p.components with
  | [.root] => []
  | cs => cs.dropLast

/-- Stem and extension of a file name. A point at the start begins no extension. -/
def splitExtension (name : Bytes) : Bytes × Option Bytes :=
  let (extension, rest) := name.reverse.span (· ≠ point)
  match rest with
  | _ :: stem => if stem = [] then (name, none) else (stem.reverse, some extension.reverse)
  | [] => (name, none)

def stem (p : FilePath) : Bytes :=
  match p.fileName? with
  | some name => (splitExtension name).1
  | none => []

def extension? (p : FilePath) : Option Bytes := do
  (splitExtension (← p.fileName?)).2

/-- A path and the paths of the directories around it, the innermost first. -/
def ancestors (p : FilePath) : List FilePath :=
  match p.pieces with
  | [] => [p]
  | first :: rest =>
    let outer := (first :: rest).dropLast.reverse.map fun piece => ⟨piece.2⟩
    p :: outer ++ if first.1 = .root then [] else [⟨[]⟩]

/-- The path is written as that of a directory: it ends in a separator or in a `.` component. -/
def endsAsDirectory (p : FilePath) : Bool :=
  [slash].isSuffixOf p.text || [slash, point].isSuffixOf p.text

/-- A path below a path that is written like this. -/
def joinText (base name : Bytes) : Bytes :=
  if base = [] ∨ base.getLast? = some slash then base ++ name else base ++ slash :: name

/-- A name in the directory at a path. -/
def join (p : FilePath) (name : Bytes) : FilePath := ⟨joinText p.text name⟩

/-- The path with another file name, which is appended to a path that has none. -/
def withFileName (p : FilePath) (name : Bytes) : FilePath :=
  ⟨joinText (if p.fileName?.isSome then p.parentText else p.text) name⟩

def fixedSuffix : List Char := ".fixed.json".toList

/-- The name of the fixed form of a document. The stem is decoded, so that documents with different
stems have one name for their fixed forms where decoding makes the stems alike. -/
def fixedName (p : FilePath) : Bytes := Utf8.encode (Utf8.decode p.stem ++ fixedSuffix)

/-- The path that the fixed form of a document is written to. -/
def fixed (p : FilePath) : FilePath := p.withFileName p.fixedName

def isFixed (p : FilePath) : Bool :=
  p.fileName?.any fun name => fixedSuffix.isSuffixOf (Utf8.decode name)

end FilePath

end TreeLint
