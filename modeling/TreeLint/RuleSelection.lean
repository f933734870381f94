import TreeLint.Configuration

namespace TreeLint

inductive RuleOrigin where
  | request | enabled | disabled
deriving DecidableEq, Repr

def RuleOrigin.label : RuleOrigin → String
  | request => "--rule"
  | enabled => "[rules] enabled"
  | disabled => "[rules] disabled"

inductive SelectionError where
  | unknownRule (id : String) (origin : RuleOrigin) (known : List String)
  | nothingSelected
deriving DecidableEq, Repr

def SelectionError.message : SelectionError → String
  | unknownRule id origin known =>
    "Unknown rule '" ++ id ++ "' in " ++ origin.label ++ " (available: " ++
      ", ".intercalate known ++ "). Use --list-rules to see available rules."
  | nothingSelected => "No rules enabled: [rules] disables every selected rule"

namespace RuleSettings

/-- Each id once, in order. -/
def canonical (ids : List String) : List String :=
  ids.eraseDups.mergeSort fun a b => decide (a ≤ b)

def checkKnown (known : List String) (origin : RuleOrigin) (ids : List String) :
    Except SelectionError Unit :=
  match ids.find? fun id => !known.contains id with
  | some id => .error (.unknownRule id origin known)
  | none => .ok ()

/-- The enabled ids that are not disabled. -/
def configured (settings : RuleSettings) (known : List String) : List String :=
  (settings.enabled.getD known).filter fun id => !settings.disabled.contains id

/-- The ids of the rules to run, in order. The ids asked for take the place of the configured ones,
and every id that is looked at has to be known. -/
def select (settings : RuleSettings) (known requested : List String) :
    Except SelectionError (List String) := do
  checkKnown known .request requested
  if requested.isEmpty then
    checkKnown known .enabled (settings.enabled.getD [])
    checkKnown known .disabled settings.disabled
    match settings.configured known with
    | [] => .error .nothingSelected
    | ids => return canonical ids
  else
    return canonical requested

end RuleSettings

end TreeLint
