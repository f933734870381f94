import TreeLint.Json.Value

namespace TreeLint.Json

inductive Token where
  | openBrace | closeBrace | openBracket | closeBracket | colon | comma
  | atom (value : Json)
deriving Repr

/-- The characters of a string read so far in reverse, or nothing behind an escape that stands for
no character. -/
abbrev Scanned := Option (List Char)

/-- Where the scanner stands. Characters of words read so far are kept in reverse. -/
inductive Scan where
  | between
  | word (read : List Char)
  | text (read : Scanned)
  | escape (read : Scanned)
  | unit (read : Scanned) (lead : Option Nat) (digits : List Char)
  | trail (read : Scanned) (lead : Nat)
  | trailUnit (read : Scanned) (lead : Nat)
deriving Repr

def isBlank (c : Char) : Bool := c = ' ' || c = '\n' || c = '\r' || c = '\t'

def punctuation? : Char → Option Token
  | '{' => some .openBrace
  | '}' => some .closeBrace
  | '[' => some .openBracket
  | ']' => some .closeBracket
  | ':' => some .colon
  | ',' => some .comma
  | _ => none

def digitsValue (digits : List Char) : Nat := Nat.ofDigitChars 10 digits 0

/-- A run of digits at the head of a text, and what follows it. -/
def spanDigits (cs : List Char) : List Char × List Char := cs.span Char.isDigit

/-- The exponent part of a number: nothing, or `e` with an optional sign and digits. -/
def exponent? : List Char → Option (Option Int)
  | [] => some none
  | e :: cs =>
    if e = 'e' || e = 'E' then
      let (sign, cs) : Int × List Char :=
        match cs with
        | '-' :: cs => (-1, cs)
        | '+' :: cs => (1, cs)
        | cs => (1, cs)
      if cs ≠ [] && cs.all Char.isDigit then some (some (sign * digitsValue cs)) else none
    else
      none

/-- The fraction digits and the exponent that follow the whole part of a number. -/
def fraction? : List Char → Option (List Char × Option Int)
  | '.' :: cs =>
    match spanDigits cs with
    | ([], _) => none
    | (digits, rest) => (exponent? rest).map fun e => (digits, some (e.getD 0))
  | cs => (exponent? cs).map fun e => ([], e)

def number? (cs : List Char) : Option Json :=
  let (isNegative, cs) : Bool × List Char :=
    match cs with
    | '-' :: cs => (true, cs)
    | cs => (false, cs)
  match spanDigits cs with
  | ([], _) => none
  | ('0' :: _ :: _, _) => none
  | (whole, rest) =>
    match fraction? rest with
    | none => none
    | some (digits, some e) => some (.float ⟨isNegative, whole, digits, e⟩)
    | some (_, none) =>
      if isNegative && whole = ['0'] then some (.float ⟨true, whole, [], 0⟩)
      else if isNegative then some (.int (-digitsValue whole))
      else some (.int (digitsValue whole))

def word? (cs : List Char) : Option Json :=
  if cs = "null".toList then some .null
  else if cs = "true".toList then some (.bool true)
  else if cs = "false".toList then some (.bool false)
  else number? cs

def hexValue? (c : Char) : Option Nat :=
  if '0' ≤ c ∧ c ≤ '9' then some (c.toNat - '0'.toNat)
  else if 'a' ≤ c ∧ c ≤ 'f' then some (c.toNat - 'a'.toNat + 10)
  else if 'A' ≤ c ∧ c ≤ 'F' then some (c.toNat - 'A'.toNat + 10)
  else none

def simpleEscape? : Char → Option Char
  | '"' => some '"'
  | '\\' => some '\\'
  | '/' => some '/'
  | 'b' => some '\x08'
  | 'f' => some '\x0c'
  | 'n' => some '\n'
  | 'r' => some '\r'
  | 't' => some '\t'
  | _ => none

/-- What follows a complete `\u` escape. A lead surrogate waits for its trail, and stands for no
character without it. -/
def finishUnit (read : Scanned) (lead : Option Nat) (unit : Nat) : Scan :=
  match lead with
  | some l =>
    if 0xDC00 ≤ unit ∧ unit ≤ 0xDFFF then
      .text (read.map (Char.ofNat (0x10000 + (l - 0xD800) * 0x400 + (unit - 0xDC00)) :: ·))
    else
      .text none
  | none =>
    if 0xD800 ≤ unit ∧ unit ≤ 0xDBFF then .trail read unit
    else if 0xDC00 ≤ unit ∧ unit ≤ 0xDFFF then .text none
    else .text (read.map (Char.ofNat unit :: ·))

def ofScanned : Scanned → Json
  | some read => .string (String.ofList read.reverse)
  | none => .garbled

/-- Reads a character inside a string: the new state, and the value that the character completes. -/
def stepText (read : Scanned) (c : Char) : Option (Scan × List Token) :=
  if c = '"' then some (.between, [.atom (ofScanned read)])
  else if c = '\\' then some (.escape read, [])
  else if c.toNat < 0x20 then none
  else some (.text (read.map (c :: ·)), [])

def stepEscape (read : Scanned) (c : Char) : Option (Scan × List Token) :=
  if c = 'u' then some (.unit read none [], [])
  else (simpleEscape? c).map fun e => (.text (read.map (e :: ·)), [])

def stepBetween (c : Char) : Scan × List Token :=
  if isBlank c then (.between, [])
  else if c = '"' then (.text (some []), [])
  else
    match punctuation? c with
    | some t => (.between, [t])
    | none => (.word [c], [])

/-- Reads a character: the new state, and the tokens that the character completes, last first. -/
def stepScan : Scan → Char → Option (Scan × List Token)
  | .between, c => some (stepBetween c)
  | .word read, c =>
    if isBlank c || c = '"' || (punctuation? c).isSome then do
      let value ← word? read.reverse
      let (s, ts) := stepBetween c
      return (s, ts ++ [.atom value])
    else
      some (.word (c :: read), [])
  | .text read, c => stepText read c
  | .escape read, c => stepEscape read c
  | .unit read lead digits, c => do
    let _ ← hexValue? c
    if digits.length < 3 then
      return (.unit read lead (digits ++ [c]), [])
    else
      let values ← (digits ++ [c]).mapM hexValue?
      return (finishUnit read lead (values.foldl (fun n d => n * 16 + d) 0), [])
  | .trail read lead, c =>
    if c = '\\' then some (.trailUnit read lead, []) else stepText none c
  | .trailUnit read lead, c =>
    if c = 'u' then some (.unit read (some lead) [], []) else stepEscape none c

/-- Reads characters onto the tokens before them, which are kept in reverse. -/
def scanFrom : Scan → List Token → List Char → Option (Scan × List Token)
  | s, ts, [] => some (s, ts)
  | s, ts, c :: cs => do
    let (s', ts') ← stepScan s c
    scanFrom s' (ts' ++ ts) cs

def tokens? (cs : List Char) : Option (List Token) :=
  match scanFrom .between [] cs with
  | some (.between, ts) => some ts.reverse
  | some (.word read, ts) => (word? read.reverse).map fun value => ts.reverse ++ [.atom value]
  | _ => none

end TreeLint.Json
