namespace TreeLint.CommandLine

/-- An option without a value. -/
inductive Flag where
  | check | fix | verbose | json | noConfig | listRules | version
deriving DecidableEq, Repr

/-- An option with a value. -/
inductive Setting where
  | rule | format | config
deriving DecidableEq, Repr

inductive Argument where
  | path (text : String)
  | flag (flag : Flag)
  | setting (setting : Setting) (value : String)
deriving DecidableEq, Repr

inductive OptionName where
  | flag (flag : Flag)
  | setting (setting : Setting)
deriving DecidableEq, Repr

def longOption? : String → Option OptionName
  | "check" => some (.flag .check)
  | "fix" => some (.flag .fix)
  | "verbose" => some (.flag .verbose)
  | "json" => some (.flag .json)
  | "no-config" => some (.flag .noConfig)
  | "list-rules" => some (.flag .listRules)
  | "version" => some (.flag .version)
  | "rule" => some (.setting .rule)
  | "format" => some (.setting .format)
  | "config" => some (.setting .config)
  | _ => none

def shortOption? : Char → Option OptionName
  | 'v' => some (.flag .verbose)
  | 'V' => some (.flag .version)
  | 'r' => some (.setting .rule)
  | _ => none

/-- What one word of a command line stands for: some arguments, and the setting that the next word
is the value of, if there is one. -/
structure Word where
  arguments : List Argument
  awaiting : Option Setting
deriving DecidableEq, Repr

/-- Reads a long option, with its value behind an equals sign if it has one there. -/
def longWord? (cs : List Char) : Option Word :=
  match cs.span (· ≠ '=') with
  | (name, rest) => do
    match ← longOption? (String.ofList name), rest with
    | .flag flag, [] => return ⟨[.flag flag], none⟩
    | .flag _, _ :: _ => none
    | .setting setting, [] => return ⟨[], some setting⟩
    | .setting setting, _ :: value => return ⟨[.setting setting (String.ofList value)], none⟩

/-- Reads option letters. What follows a letter that takes a value is that value, with or without an
equals sign in front of it. -/
def shortWord? : List Char → Option Word
  | [] => some ⟨[], none⟩
  | c :: cs => do
    match ← shortOption? c with
    | .flag .version => return ⟨[.flag .version], none⟩
    | .flag flag => do
      let word ← shortWord? cs
      return { word with arguments := .flag flag :: word.arguments }
    | .setting setting =>
      match cs with
      | [] => return ⟨[], some setting⟩
      | '=' :: value => return ⟨[.setting setting (String.ofList value)], none⟩
      | value => return ⟨[.setting setting (String.ofList value)], none⟩

def word? (text : String) : Option Word :=
  match text.toList with
  | '-' :: '-' :: cs => longWord? cs
  | '-' :: c :: cs => shortWord? (c :: cs)
  | _ => some ⟨[.path text], none⟩

/-- A word that is an option or ends the options. A lone `-` is neither. -/
def isOption (text : String) : Bool :=
  match text.toList with
  | '-' :: _ :: _ => true
  | _ => false

/-- The arguments on a command line, up to the first that asks for the version. A setting that
awaits its value takes the next word for it, which must not be an option. -/
def arguments? : Option Setting → List String → Option (List Argument)
  | none, [] => some []
  | some _, [] => none
  | some setting, text :: rest =>
    if isOption text then none
    else (arguments? none rest).map (.setting setting text :: ·)
  | none, text :: rest =>
    if text = "--" then some (rest.map .path)
    else do
      let word ← word? text
      if word.arguments.contains (.flag .version) then return word.arguments
      return word.arguments ++ (← arguments? word.awaiting rest)

end TreeLint.CommandLine
