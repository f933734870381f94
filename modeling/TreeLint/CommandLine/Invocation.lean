import TreeLint.CommandLine.Arguments
import TreeLint.FilePath

namespace TreeLint.CommandLine

/-- The options and paths of a run. -/
structure Invocation where
  paths : List FilePath
  check : Bool
  fix : Bool
  verbose : Bool
  rules : List String
  format : Option String
  json : Bool
  config : Option FilePath
  noConfig : Bool
  listRules : Bool
deriving DecidableEq, Repr

inductive Command where
  | version
  | lint (invocation : Invocation)
deriving DecidableEq, Repr

def Argument.path? : Argument → Option String
  | .path text => some text
  | _ => none

def Argument.valueOf? (setting : Setting) : Argument → Option String
  | .setting other value => if other = setting then some value else none
  | _ => none

namespace Invocation

def valuesOf (setting : Setting) (arguments : List Argument) : List String :=
  arguments.filterMap (Argument.valueOf? setting)

def ofArguments (arguments : List Argument) : Invocation where
  paths := (arguments.filterMap Argument.path?).map .ofText
  check := arguments.contains (.flag .check)
  fix := arguments.contains (.flag .fix)
  verbose := arguments.contains (.flag .verbose)
  rules := valuesOf .rule arguments
  format := (valuesOf .format arguments).head?
  json := arguments.contains (.flag .json)
  config := (valuesOf .config arguments).head?.map .ofText
  noConfig := arguments.contains (.flag .noConfig)
  listRules := arguments.contains (.flag .listRules)

/-- No two options exclude each other, and there are paths wherever they are needed. -/
def isConsistent (i : Invocation) : Bool :=
  !(i.check && i.fix) && !(i.json && i.format.isSome) && !(i.config.isSome && i.noConfig) &&
    (i.listRules || !i.paths.isEmpty)

end Invocation

/-- The arguments are fine one by one: no flag is repeated, no setting other than the rule is, and
no path is empty. -/
def areWellFormed (arguments : List Argument) : Bool :=
  (arguments.all fun a => match a with
    | .path text => text != ""
    | .flag _ => arguments.count a == 1
    | .setting .rule _ => true
    | .setting .format _ => (Invocation.valuesOf .format arguments).length == 1
    | .setting .config value =>
      value != "" && (Invocation.valuesOf .config arguments).length == 1)

def Command.parse? (words : List String) : Option Command := do
  let arguments ← arguments? none words
  guard (areWellFormed arguments)
  if arguments.contains (.flag .version) then
    return .version
  let invocation := Invocation.ofArguments arguments
  guard invocation.isConsistent
  return .lint invocation

end TreeLint.CommandLine
