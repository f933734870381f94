import TreeLint.Toml.Scalar
import TreeLint.Toml.Table
import TreeLint.Toml.Text

namespace TreeLint.Toml

def skipBlanks (cs : List Char) : List Char := cs.dropWhile isBlank

/-- What follows the end of a line on which only blanks and a comment are left. -/
def endLine? (cs : List Char) : Option (List Char) :=
  let cs := skipBlanks cs
  let rest? : Option (List Char) :=
    match cs with
    | '#' :: cs => some (cs.dropWhile fun c => !isControl c)
    | cs => some cs
  match rest? with
  | some [] => some []
  | some ('\n' :: rest) => some rest
  | some ('\r' :: '\n' :: rest) => some rest
  | _ => none

/-- Skips blanks, line breaks and comments, in at most so many steps. -/
def skipSpaceWithin? : Nat → List Char → Option (List Char)
  | 0, cs => some cs
  | n + 1, cs =>
    match skipBlanks cs with
    | '#' :: _ | '\n' :: _ | '\r' :: _ => do skipSpaceWithin? n (← endLine? cs)
    | cs => some cs

def skipSpace? (cs : List Char) : Option (List Char) := skipSpaceWithin? cs.length cs

def isBareKey (c : Char) : Bool := c.isAlphanum || c = '_' || c = '-'

/-- One part of a key and what follows it. -/
def simpleKey? : List Char → Option (String × List Char)
  | '"' :: cs => (basic? cs).map fun (text, rest) => (String.ofList text, rest)
  | '\'' :: cs => (literal? cs).map fun (text, rest) => (String.ofList text, rest)
  | cs =>
    match cs.span isBareKey with
    | ([], _) => none
    | (text, rest) => some (String.ofList text, rest)

/-- The parts of a dotted key and what follows it, in at most so many steps. -/
def keyWithin? : Nat → List Char → Option (List String × List Char)
  | 0, _ => none
  | n + 1, cs => do
    let (key, rest) ← simpleKey? (skipBlanks cs)
    match skipBlanks rest with
    | '.' :: rest => do
      let (keys, rest) ← keyWithin? n rest
      return (key :: keys, rest)
    | rest => return ([key], rest)

/-- The most parts that a key may have, and the most arrays and inline tables that may be around a
value. -/
def maxDepth : Nat := 79

/-- The path and the name of a key, and what follows it. -/
def key? (cs : List Char) : Option (List String × String × List Char) := do
  let (keys, rest) ← keyWithin? (cs.length + 1) cs
  guard (keys.length ≤ maxDepth)
  return (keys.dropLast, ← keys.getLast?, rest)

mutual

/-- Reads a value with at most so many arrays, tables, items and fields in a row, and so many arrays
and tables within each other. -/
def valueWithin? : Nat → Nat → List Char → Option (Value × List Char)
  | 0, _, _ => none
  | _ + 1, _, '"' :: '"' :: '"' :: cs => text (longBasic? cs)
  | _ + 1, _, '"' :: cs => text (basic? cs)
  | _ + 1, _, '\'' :: '\'' :: '\'' :: cs => text (longLiteral? cs)
  | _ + 1, _, '\'' :: cs => text (literal? cs)
  | n + 1, depth, '[' :: cs => do
    guard (depth ≠ 0)
    let (items, rest) ← itemsWithin? n (depth - 1) cs
    return (.array items, rest)
  | n + 1, depth, '\x7b' :: cs => do
    guard (depth ≠ 0)
    match skipBlanks cs with
    | '\x7d' :: rest => return (.table .inline [], rest)
    | cs => do
      let (fields, rest) ← fieldsWithin? n (depth - 1) [] cs
      return (.table .inline fields, rest)
  | _ + 1, _, cs => (scalar? cs).map fun (word, rest) => (.scalar word, rest)
where
  text (read : Option (List Char × List Char)) : Option (Value × List Char) :=
    read.map fun (text, rest) => (.string (String.ofList text), rest)

/-- Reads the items of an array and the bracket that closes it. -/
def itemsWithin? : Nat → Nat → List Char → Option (List Value × List Char)
  | 0, _, _ => none
  | n + 1, depth, cs => do
    match ← skipSpace? cs with
    | ']' :: rest => return ([], rest)
    | cs => do
      let (v, rest) ← valueWithin? n depth cs
      match ← skipSpace? rest with
      | ',' :: rest => do
        let (vs, rest) ← itemsWithin? n depth rest
        return (v :: vs, rest)
      | ']' :: rest => return ([v], rest)
      | _ => none

/-- Reads the fields of an inline table behind those read before, and the brace that closes it. -/
def fieldsWithin? : Nat → Nat → Fields → List Char → Option (Fields × List Char)
  | 0, _, _, _ => none
  | n + 1, depth, fields, cs => do
    let (path, name, rest) ← key? cs
    match rest with
    | '=' :: rest => do
      let (v, rest) ← valueWithin? n depth (skipBlanks rest)
      let fields ← fields.addDotted? .inline path name v
      match skipBlanks rest with
      | ',' :: rest => fieldsWithin? n depth fields rest
      | '\x7d' :: rest => return (fields, rest)
      | _ => none
    | _ => none

end

def value? (cs : List Char) : Option (Value × List Char) :=
  valueWithin? (cs.length + 1) maxDepth cs

/-- A document under way: its fields, and the path of the table that is open. -/
structure Reading where
  fields : Fields
  current : List String

/-- Reads a header or a field and the end of its line. -/
def line? (r : Reading) (cs : List Char) : Option (Reading × List Char) :=
  match cs with
  | '[' :: '[' :: cs => do
    let (path, name, rest) ← key? cs
    match rest with
    | ']' :: ']' :: rest => do
      return (⟨← r.fields.openElement? path name, path ++ [name]⟩, ← endLine? rest)
    | _ => none
  | '[' :: cs => do
    let (path, name, rest) ← key? cs
    match rest with
    | ']' :: rest => do
      return (⟨← r.fields.openTable? path name, path ++ [name]⟩, ← endLine? rest)
    | _ => none
  | cs => do
    let (path, name, rest) ← key? cs
    match rest with
    | '=' :: rest => do
      let (v, rest) ← value? (skipBlanks rest)
      let add (origin : Origin) (fields : Fields) := fields.addDotted? origin path name v
      return ({ r with fields := ← r.fields.update? false add .header r.current },
        ← endLine? rest)
    | _ => none

/-- Reads the lines of a document, in at most so many steps. -/
def linesWithin? : Nat → Reading → List Char → Option Fields
  | 0, _, _ => none
  | n + 1, r, cs => do
    match ← skipSpace? cs with
    | [] => return r.fields
    | cs => do
      let (r, rest) ← line? r cs
      linesWithin? n r rest

/-- The fields of a document. A byte order mark may stand at its start. -/
def parse? (text : String) : Option Fields :=
  let cs := match text.toList with
    | '\ufeff' :: cs => cs
    | cs => cs
  linesWithin? (cs.length + 1) ⟨[], []⟩ cs

end TreeLint.Toml
