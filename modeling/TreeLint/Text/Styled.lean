namespace TreeLint

inductive Style where
  | bold | heading | red | green | yellow | blue | cyan
deriving DecidableEq, Repr

namespace Style

/-- The parameters of the escape sequence that opens a style. -/
def parameters : Style → String
  | bold => "1"
  | heading => "1;4"
  | red => "31"
  | green => "32"
  | yellow => "33"
  | blue => "34"
  | cyan => "36"

def opening (s : Style) : String := "\x1b[" ++ s.parameters ++ "m"

def closing : String := "\x1b[0m"

/-- The text with a sequence written again behind each sequence that closes a style. -/
def reopen (opening : List Char) : List Char → List Char
  | '\x1b' :: '[' :: '0' :: 'm' :: cs =>
    '\x1b' :: '[' :: '0' :: 'm' :: (opening ++ reopen opening cs)
  | c :: cs => c :: reopen opening cs
  | [] => []

def apply (s : Style) (text : String) : String :=
  s.opening ++ String.ofList (reopen s.opening.toList text.toList) ++ closing

end Style

structure Terminal where
  colors : Bool
deriving DecidableEq, Repr

/-- Whether to use colors, by what the environment says. Colors may be forced; without that they may
be refused by the mere presence of a variable; without either they are for terminals only, and even
there they can be switched off. -/
def Terminal.detect (isTerminal : Bool) (colors forced refused : Option String) : Terminal where
  colors :=
    if forced.any (· ≠ "0") then true
    else if refused.isSome then false
    else colors.all (· ≠ "0") && isTerminal

def Terminal.paint (t : Terminal) (s : Style) (text : String) : String :=
  if t.colors then s.apply text else text

end TreeLint
