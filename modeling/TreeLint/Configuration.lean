import TreeLint.Toml.Parse

namespace TreeLint

inductive OutputFormat where
  | text | json
deriving DecidableEq, Repr

namespace OutputFormat

def all : List OutputFormat := [text, json]

def name : OutputFormat → String
  | text => "text"
  | json => "json"

def ofName? (name : String) : Option OutputFormat :=
  all.find? fun format => format.name == name

/-- The format that a name stands for in upper or lower case. No letter outside ASCII has one of the
letters of these names as its lower case. -/
def ofAnyCase? (name : String) : Option OutputFormat :=
  ofName? (String.ofList (name.toList.map Char.toLower))

end OutputFormat

/-- The rules to run: those with the enabled ids, or all when that list is missing, without those
with the disabled ids. -/
structure RuleSettings where
  enabled : Option (List String)
  disabled : List String
deriving DecidableEq, Repr

/-- Which rules to run, which documents to skip and how to report. -/
structure Configuration where
  rules : RuleSettings
  exclude : List String
  format : Option OutputFormat
deriving DecidableEq, Repr

namespace Configuration

def empty : Configuration := ⟨⟨none, []⟩, [], none⟩

/-- The fields of a record with these names. It is a table with no other fields, or a list of the
first of its values, in which what follows the last one is not looked at. -/
def record? (names : List String) : Toml.Value → Option Toml.Fields
  | .table _ fields => if fields.all fun f => names.contains f.1 then some fields else none
  | .array items => some (names.zip items)
  | .tables elements => some (names.zip (elements.map (.table .header)))
  | _ => none

def string? : Toml.Value → Option String
  | .string value => some value
  | _ => none

def strings? : Toml.Value → Option (List String)
  | .array items => items.mapM string?
  | _ => none

def isEmpty : Toml.Value → Bool
  | .array items => items.isEmpty
  | .table _ fields => fields.isEmpty
  | _ => false

/-- A format is given by its name, or by a table with nothing but an empty value of that name. -/
def format? : Toml.Value → Option OutputFormat
  | .string name => OutputFormat.ofName? name
  | .table _ [(name, v)] => if isEmpty v then OutputFormat.ofName? name else none
  | _ => none

def optional? {α : Type} (fields : Toml.Fields) (name : String) (read : Toml.Value → Option α) :
    Option (Option α) :=
  match fields.lookup name with
  | some v => (read v).map some
  | none => some none

def rules? (v : Toml.Value) : Option RuleSettings := do
  let fields ← record? ["enabled", "disabled"] v
  let enabled ← optional? fields "enabled" strings?
  let disabled ← optional? fields "disabled" strings?
  return ⟨enabled, disabled.getD []⟩

def exclude? (v : Toml.Value) : Option (List String) := do
  let fields ← record? ["exclude"] v
  return (← optional? fields "exclude" strings?).getD []

def output? (v : Toml.Value) : Option (Option OutputFormat) := do
  optional? (← record? ["format"] v) "format" format?

def ofToml? (v : Toml.Value) : Option Configuration := do
  let fields ← record? ["rules", "paths", "output"] v
  let rules ← optional? fields "rules" rules?
  let exclude ← optional? fields "paths" exclude?
  let format ← optional? fields "output" output?
  return ⟨rules.getD ⟨none, []⟩, exclude.getD [], format.join⟩

def parse? (text : String) : Option Configuration := do
  ofToml? (.table .header (← Toml.parse? text))

end Configuration

end TreeLint
