namespace TreeLint.Toml

/-- How a table came to be, which decides what may still be added to it. -/
inductive Origin where
  | inline | header | implied | dotted
deriving DecidableEq, Repr

/-- A TOML value. A scalar other than a string is kept as it is written. -/
inductive Value where
  | string (value : String)
  | scalar (text : String)
  | array (items : List Value)
  | table (origin : Origin) (fields : List (String × Value))
  | tables (elements : List (List (String × Value)))
deriving Repr, Inhabited

abbrev Fields := List (String × Value)

namespace Fields

def set (fields : Fields) (name : String) (v : Value) : Fields :=
  if fields.any fun f => f.1 == name then
    fields.map fun f => if f.1 == name then (name, v) else f
  else
    fields ++ [(name, v)]

/-- Adds a field whose name must be new. -/
def add? (fields : Fields) (name : String) (v : Value) : Option Fields :=
  if fields.any fun f => f.1 == name then none else some (fields ++ [(name, v)])

/-- Changes the table at the end of a path, and makes the tables on the way that are missing. Of an
array of tables the last one is meant. The keys of a path are those of a header or of a dotted key;
a dotted key may not go into a table that has a header. -/
def update? (dotted : Bool) (change : Origin → Fields → Option Fields) (origin : Origin) :
    List String → Fields → Option Fields
  | [], fields => change origin fields
  | key :: path, fields =>
    match fields.lookup key with
    | none => do
      let new : Origin := if dotted then .dotted else .implied
      return fields.set key (.table new (← update? dotted change new path []))
    | some (.table origin inner) =>
      if origin = .inline ∨ dotted ∧ origin = .header then
        none
      else do
        return fields.set key (.table origin (← update? dotted change origin path inner))
    | some (.tables elements) => do
      let last ← update? dotted change .header path (← elements.getLast?)
      return fields.set key (.tables (elements.dropLast ++ [last]))
    | some _ => none

/-- Adds the value of a dotted key, which stands in the table that its last but one key opens. -/
def addDotted? (origin : Origin) (path : List String) (name : String) (v : Value)
    (fields : Fields) : Option Fields :=
  let add (origin : Origin) (fields : Fields) : Option Fields :=
    if path ≠ [] ∧ origin ≠ .dotted then none else fields.add? name v
  update? true add origin path fields

def openTable? (path : List String) (name : String) (fields : Fields) : Option Fields :=
  let start (_ : Origin) (fields : Fields) : Option Fields :=
    match fields.lookup name with
    | none => some (fields.set name (.table .header []))
    | some (.table .implied inner) => some (fields.set name (.table .header inner))
    | some _ => none
  update? false start .header path fields

/-- Opens the next table of an array of tables. -/
def openElement? (path : List String) (name : String) (fields : Fields) : Option Fields :=
  let start (_ : Origin) (fields : Fields) : Option Fields :=
    match fields.lookup name with
    | none => some (fields.set name (.tables [[]]))
    | some (.tables elements) => some (fields.set name (.tables (elements ++ [[]])))
    | some _ => none
  update? false start .header path fields

end Fields

end TreeLint.Toml
