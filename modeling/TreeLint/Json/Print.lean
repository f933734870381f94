import TreeLint.Json.Value

namespace TreeLint.Json

def hexDigit (n : Nat) : Char := Nat.digitChar n

def escapeChar (c : Char) : List Char :=
  if c = '"' then ['\\', '"']
  else if c = '\\' then ['\\', '\\']
  else if c = '\x08' then ['\\', 'b']
  else if c = '\x0c' then ['\\', 'f']
  else if c = '\n' then ['\\', 'n']
  else if c = '\r' then ['\\', 'r']
  else if c = '\t' then ['\\', 't']
  else if c.toNat < 0x20 then
    ['\\', 'u', '0', '0', hexDigit (c.toNat / 16), hexDigit (c.toNat % 16)]
  else [c]

def printString (s : String) : List Char :=
  '"' :: (s.toList.flatMap escapeChar ++ ['"'])

/-- How items are laid out: whether each has its own line. -/
structure Layout where
  isBroken : Bool

namespace Layout

def compact : Layout := ⟨false⟩

def pretty : Layout := ⟨true⟩

/-- What stands before an item at a level of nesting. -/
def newline (l : Layout) (level : Nat) : List Char :=
  if l.isBroken then '\n' :: List.replicate (2 * level) ' ' else []

def colon (l : Layout) : List Char := if l.isBroken then [':', ' '] else [':']

end Layout

def printInt (n : Int) : List Char := (toString n).toList

/-- A number with its digits, and with an exponent even if it is zero. -/
def printDecimal (d : Decimal) : List Char :=
  let sign := if d.isNegative then ['-'] else []
  let fraction := if d.fraction.isEmpty then [] else '.' :: d.fraction
  sign ++ d.whole ++ fraction ++ 'e' :: printInt d.exponent

mutual

/-- The text of a value. A garbled one is written as a surrogate that stands alone. -/
def printAt (l : Layout) (level : Nat) : Json → List Char
  | null => "null".toList
  | bool true => "true".toList
  | bool false => "false".toList
  | int value => printInt value
  | float value => printDecimal value
  | string value => printString value
  | garbled => "\"\\ud800\"".toList
  | array [] => ['[', ']']
  | array items => '[' :: (printItems l (level + 1) items ++ l.newline level ++ [']'])
  | object [] => ['\x7b', '\x7d']
  | object fields => '\x7b' :: (printFields l (level + 1) fields ++ l.newline level ++ ['\x7d'])

def printItems (l : Layout) (level : Nat) : List Json → List Char
  | [] => []
  | [v] => l.newline level ++ printAt l level v
  | v :: vs => l.newline level ++ printAt l level v ++ ',' :: printItems l level vs

def printFields (l : Layout) (level : Nat) : List (String × Json) → List Char
  | [] => []
  | [(k, v)] => l.newline level ++ printString k ++ l.colon ++ printAt l level v
  | (k, v) :: fs =>
    l.newline level ++ printString k ++ l.colon ++ printAt l level v ++
      ',' :: printFields l level fs

end

/-- The text of a value on one line. -/
def compact (v : Json) : String := String.ofList (printAt .compact 0 v)

/-- The text of a value with one item to a line. -/
def pretty (v : Json) : String := String.ofList (printAt .pretty 0 v)

end TreeLint.Json
