import TreeLint.Decimal
import TreeLint.Toml.Text

namespace TreeLint.Toml

/-- The digits that follow a first one, and what is left. An underscore may stand between two
digits. -/
def moreDigits (isDigit : Char → Bool) : List Char → List Char × List Char
  | '_' :: d :: cs =>
    if isDigit d then
      let (digits, rest) := moreDigits isDigit cs
      (d :: digits, rest)
    else
      ([], '_' :: d :: cs)
  | d :: cs =>
    if isDigit d then
      let (digits, rest) := moreDigits isDigit cs
      (d :: digits, rest)
    else
      ([], d :: cs)
  | [] => ([], [])

/-- The digits at the head of a text, at least one, and what is left. -/
def digits? (isDigit : Char → Bool) : List Char → Option (List Char × List Char)
  | d :: cs =>
    if isDigit d then
      let (digits, rest) := moreDigits isDigit cs
      some (d :: digits, rest)
    else
      none
  | [] => none

/-- The digits in front of the point, and what is left. No other digit follows a zero in first
place. -/
def wholeDigits? : List Char → Option (List Char × List Char)
  | '0' :: cs => some (['0'], cs)
  | cs => digits? Char.isDigit cs

/-- Whether a text starts with a minus sign, and what follows the sign if there is one. -/
def splitSign : List Char → Bool × List Char
  | '-' :: cs => (true, cs)
  | '+' :: cs => (false, cs)
  | cs => (false, cs)

def isTruth (cs : List Char) : Bool := cs = "true".toList || cs = "false".toList

def isHexDigit (c : Char) : Bool := (hexDigit? c).isSome

def isOctalDigit (c : Char) : Bool := '0' ≤ c && c ≤ '7'

def isBinaryDigit (c : Char) : Bool := c = '0' || c = '1'

/-- The number that digits stand for in a base of at most sixteen. -/
def valueInBase (base : Nat) (digits : List Char) : Nat :=
  digits.foldl (fun n d => base * n + (hexDigit? d).getD 0) 0

/-- The least integer that is too large. -/
def integerBound : Nat := 9223372036854775808

/-- Digits in a base other than ten, without a sign, that stand for an integer of 64 bits. -/
def isBasedInteger (base : Nat) (isDigit : Char → Bool) (cs : List Char) : Bool :=
  match digits? isDigit cs with
  | some (digits, []) => valueInBase base digits < integerBound
  | _ => false

def isInteger : List Char → Bool
  | '0' :: 'x' :: cs => isBasedInteger 16 isHexDigit cs
  | '0' :: 'o' :: cs => isBasedInteger 8 isOctalDigit cs
  | '0' :: 'b' :: cs => isBasedInteger 2 isBinaryDigit cs
  | cs =>
    let (isNegative, cs) := splitSign cs
    match wholeDigits? cs with
    | some (digits, []) =>
      let n := valueInBase 10 digits
      if isNegative then n ≤ integerBound else n < integerBound
    | _ => false

/-- The point and the digits behind it, if there is a point. -/
def fraction? : List Char → Option (List Char × List Char)
  | '.' :: cs => digits? Char.isDigit cs
  | cs => some ([], cs)

/-- The exponent to the end of a text, if there is one. -/
def exponent? : List Char → Option Int
  | [] => some 0
  | e :: cs =>
    if e = 'e' || e = 'E' then
      let (isNegative, cs) := splitSign cs
      match digits? Char.isDigit cs with
      | some (digits, []) =>
        let n : Int := valueInBase 10 digits
        some (if isNegative then -n else n)
      | _ => none
    else
      none

/-- The digits of a number with a point or an exponent. -/
def decimal? (cs : List Char) : Option Decimal := do
  let (isNegative, cs) := splitSign cs
  let (whole, rest) ← wholeDigits? cs
  guard (rest ≠ [])
  let (fraction, rest) ← fraction? rest
  return ⟨isNegative, whole, fraction, ← exponent? rest⟩

/-- A number with a point or an exponent, or one of the special values. A positive number must not
be beyond the range of double-precision numbers; a negative one may. -/
def isFloat (cs : List Char) : Bool :=
  match decimal? cs with
  | some d => d.isNegative || !d.roundsToInfinity
  | none =>
    let (_, name) := splitSign cs
    name = "inf".toList || name = "nan".toList

/-- The number that two digits at the head of a text stand for, and what is left. -/
def twoDigits? : List Char → Option (Nat × List Char)
  | c :: d :: cs =>
    if c.isDigit && d.isDigit then some (valueInBase 10 [c, d], cs) else none
  | _ => none

def isLeapYear (year : Nat) : Bool := year % 4 = 0 && year % 100 ≠ 0 || year % 400 = 0

def daysInMonth (year month : Nat) : Nat :=
  if month = 2 then if isLeapYear year then 29 else 28
  else if month = 4 || month = 6 || month = 9 || month = 11 then 30
  else 31

def date? (cs : List Char) : Option (List Char) := do
  let (century, cs) ← twoDigits? cs
  let (yearOfCentury, cs) ← twoDigits? cs
  let '-' :: cs := cs | none
  let (month, cs) ← twoDigits? cs
  let '-' :: cs := cs | none
  let (day, cs) ← twoDigits? cs
  guard (1 ≤ month ∧ month ≤ 12)
  guard (1 ≤ day ∧ day ≤ daysInMonth (100 * century + yearOfCentury) month)
  return cs

/-- The hours and minutes at the head of a text, in range, and what is left. -/
def hoursAndMinutes? (cs : List Char) : Option (List Char) := do
  let (hour, cs) ← twoDigits? cs
  let ':' :: cs := cs | none
  let (minute, cs) ← twoDigits? cs
  guard (hour < 24 ∧ minute < 60)
  return cs

/-- What follows a time. A minute may have a leap second. -/
def time? (cs : List Char) : Option (List Char) := do
  let ':' :: cs ← hoursAndMinutes? cs | none
  let (second, cs) ← twoDigits? cs
  guard (second ≤ 60)
  match cs with
  | '.' :: cs =>
    match cs.span Char.isDigit with
    | ([], _) => none
    | (_, rest) => return rest
  | cs => return cs

/-- The offset from universal time, or nothing for a local time. -/
def isOffset : List Char → Bool
  | [] => true
  | 'Z' :: cs | 'z' :: cs => cs.isEmpty
  | '+' :: cs | '-' :: cs => hoursAndMinutes? cs = some []
  | _ => false

def isDate (cs : List Char) : Bool := date? cs = some []

def isTimeOfDay (cs : List Char) : Bool := (time? cs).any isOffset

/-- A date, a local time, or a date and a time with a letter between them. -/
def isMoment (cs : List Char) : Bool :=
  match date? cs with
  | some [] => true
  | some (t :: cs) => (t = 'T' || t = 't') && isTimeOfDay cs
  | none => time? cs = some []

def isScalar (cs : List Char) : Bool := isTruth cs || isInteger cs || isFloat cs || isMoment cs

def isWord (c : Char) : Bool :=
  c.isAlphanum || c = '_' || c = '-' || c = '+' || c = '.' || c = ':'

/-- Reads a scalar. A time that belongs to a date may stand behind a single space. -/
def scalar? (cs : List Char) : Option (String × List Char) :=
  let (word, rest) := cs.span isWord
  if !isScalar word then none
  else
    match rest with
    | ' ' :: cs =>
      let (time, behind) := cs.span isWord
      if isDate word && isTimeOfDay time then some (String.ofList (word ++ ' ' :: time), behind)
      else some (String.ofList word, rest)
    | _ => some (String.ofList word, rest)

end TreeLint.Toml
