namespace TreeLint.Toml

/-- A control character other than the tab. No text and no comment may hold one. -/
def isControl (c : Char) : Bool := (c.toNat < 0x20 && c != '\t') || c.toNat = 0x7F

def isBlank (c : Char) : Bool := c = ' ' || c = '\t'

def hexDigit? (c : Char) : Option Nat :=
  if '0' ≤ c ∧ c ≤ '9' then some (c.toNat - '0'.toNat)
  else if 'a' ≤ c ∧ c ≤ 'f' then some (c.toNat - 'a'.toNat + 10)
  else if 'A' ≤ c ∧ c ≤ 'F' then some (c.toNat - 'A'.toNat + 10)
  else none

/-- The character with a code point given in hexadecimal digits. -/
def codePoint? (digits : List Char) : Option Char := do
  let code := (← digits.mapM hexDigit?).foldl (fun n d => n * 16 + d) 0
  if code.isValidChar then return Char.ofNat code else none

def simpleEscape? : Char → Option Char
  | 'b' => some '\x08'
  | 't' => some '\t'
  | 'n' => some '\n'
  | 'f' => some '\x0c'
  | 'r' => some '\r'
  | '"' => some '"'
  | '\\' => some '\\'
  | _ => none

/-- The escape that follows a backslash and the text behind it. -/
def escape? : List Char → Option (Char × List Char)
  | 'u' :: cs =>
    if 4 ≤ cs.length then (codePoint? (cs.take 4)).map (·, cs.drop 4) else none
  | 'U' :: cs =>
    if 8 ≤ cs.length then (codePoint? (cs.take 8)).map (·, cs.drop 8) else none
  | c :: cs => (simpleEscape? c).map (·, cs)
  | [] => none

/-- Reads a basic string on one line, in at most so many steps. -/
def basicWithin? : Nat → List Char → Option (List Char × List Char)
  | 0, _ => none
  | _, [] => none
  | n + 1, c :: cs =>
    if c = '"' then some ([], cs)
    else if c = '\\' then do
      let (e, rest) ← escape? cs
      let (text, rest) ← basicWithin? n rest
      return (e :: text, rest)
    else if isControl c then none
    else do
      let (text, rest) ← basicWithin? n cs
      return (c :: text, rest)

def basic? (cs : List Char) : Option (List Char × List Char) := basicWithin? cs.length cs

/-- Reads a literal string on one line. -/
def literal? : List Char → Option (List Char × List Char)
  | [] => none
  | c :: cs =>
    if c = '\'' then some ([], cs)
    else if isControl c then none
    else do
      let (text, rest) ← literal? cs
      return (c :: text, rest)

def dropNewline : List Char → List Char
  | '\n' :: cs => cs
  | '\r' :: '\n' :: cs => cs
  | cs => cs

def dropSpace : List Char → List Char
  | '\r' :: '\n' :: cs => dropSpace cs
  | c :: cs => if isBlank c || c = '\n' then dropSpace cs else c :: cs
  | [] => []

/-- What follows a backslash at the end of a line, if that is where it stands. -/
def continuation? (cs : List Char) : Option (List Char) :=
  match cs.dropWhile isBlank with
  | '\n' :: rest => some (dropSpace rest)
  | '\r' :: '\n' :: rest => some (dropSpace rest)
  | _ => none

/-- Reads the closing quotes of a string on several lines. Up to two quotes in front of them belong
to the text. -/
def closing? (quote : Char) (cs : List Char) : Option (List Char × List Char) :=
  let run := (cs.takeWhile (· = quote)).length
  if run < 3 then none
  else
    let inside := min (run - 3) 2
    some (List.replicate inside quote, cs.drop (inside + 3))

/-- Reads a basic string on several lines, in at most so many steps. -/
def longBasicWithin? : Nat → List Char → Option (List Char × List Char)
  | 0, _ => none
  | _, [] => none
  | n + 1, c :: cs =>
    match closing? '"' (c :: cs) with
    | some closed => some closed
    | none =>
      if c = '\\' then
        match continuation? cs with
        | some rest => longBasicWithin? n rest
        | none => do
          let (e, rest) ← escape? cs
          let (text, rest) ← longBasicWithin? n rest
          return (e :: text, rest)
      else
        match c, cs with
        | '\r', '\n' :: rest => do
          let (text, rest) ← longBasicWithin? n rest
          return ('\n' :: text, rest)
        | c, cs =>
          if isControl c && c != '\n' then none
          else do
            let (text, rest) ← longBasicWithin? n cs
            return (c :: text, rest)

def longBasic? (cs : List Char) : Option (List Char × List Char) :=
  longBasicWithin? cs.length (dropNewline cs)

/-- Reads a literal string on several lines, in at most so many steps. -/
def longLiteralWithin? : Nat → List Char → Option (List Char × List Char)
  | 0, _ => none
  | _, [] => none
  | n + 1, c :: cs =>
    match closing? '\'' (c :: cs) with
    | some closed => some closed
    | none =>
      match c, cs with
      | '\r', '\n' :: rest => do
        let (text, rest) ← longLiteralWithin? n rest
        return ('\n' :: text, rest)
      | c, cs =>
        if isControl c && c != '\n' then none
        else do
          let (text, rest) ← longLiteralWithin? n cs
          return (c :: text, rest)

def longLiteral? (cs : List Char) : Option (List Char × List Char) :=
  longLiteralWithin? cs.length (dropNewline cs)

end TreeLint.Toml
