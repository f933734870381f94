namespace TreeLint

/-- A set of characters is a list of ranges, both ends included. -/
abbrev CharRange := Char × Char

/-- A part of a glob: a character, `?`, `*`, a set `[…]` or `[!…]`, or `**`, which is a path
component of its own and stands for any number of components. `?` and `*` also stand for separators
and for leading points. -/
inductive GlobPart where
  | char (c : Char)
  | anyChar
  | anyChars
  | anyComponents
  | oneOf (ranges : List CharRange)
  | noneOf (ranges : List CharRange)
deriving DecidableEq, Repr

abbrev Glob := List GlobPart

namespace Glob

/-- The ranges that the text inside brackets stands for. -/
def ranges : List Char → List CharRange
  | a :: '-' :: b :: cs => (a, b) :: ranges cs
  | a :: cs => (a, a) :: ranges cs
  | [] => []

def inRanges (rs : List CharRange) (c : Char) : Bool :=
  rs.any fun (first, last) => first ≤ c && c ≤ last

def splitBracket? (cs : List Char) : Option (List Char × List Char) :=
  match cs.span (· ≠ ']') with
  | (inside, _ :: rest) => some (inside, rest)
  | (_, []) => none

/-- The set behind an opening bracket and what follows it. A closing bracket in first place is a
member of the set. -/
def bracket? : List Char → Option (GlobPart × List Char)
  | '!' :: c :: cs =>
    (splitBracket? cs).map fun (inside, rest) => (.noneOf (ranges (c :: inside)), rest)
  | '!' :: [] => none
  | c :: cs => (splitBracket? cs).map fun (inside, rest) => (.oneOf (ranges (c :: inside)), rest)
  | [] => none

/-- Reads a pattern with the character before it, in at most so many steps. -/
def parseWithin? : Nat → Option Char → List Char → Option Glob
  | _, _, [] => some []
  | 0, _, _ => none
  | n + 1, before, c :: cs =>
    match c with
    | '?' => (parseWithin? n (some c) cs).map (.anyChar :: ·)
    | '[' => do
      let (part, rest) ← bracket? cs
      return part :: (← parseWithin? n (some ']') rest)
    | '*' =>
      match cs with
      | '*' :: cs =>
        if before.all (· = '/') then
          match cs with
          | [] => some [.anyComponents]
          | '/' :: rest => (parseWithin? n (some '/') rest).map (.anyComponents :: ·)
          | _ => none
        else
          none
      | _ => (parseWithin? n (some c) cs).map (.anyChars :: ·)
    | c => (parseWithin? n (some c) cs).map (.char c :: ·)

def parse? (pattern : String) : Option Glob :=
  parseWithin? pattern.toList.length none pattern.toList

/-- A text and all that is left of it after dropping characters at its start. -/
def suffixes : List Char → List (List Char)
  | [] => [[]]
  | c :: cs => (c :: cs) :: suffixes cs

/-- What is left of a text behind each of the separators in it. -/
def componentSuffixes : List Char → List (List Char)
  | [] => []
  | c :: cs => if c = '/' then cs :: componentSuffixes cs else componentSuffixes cs

/-- The glob stands for the whole text. -/
def accepts : Glob → List Char → Bool
  | [], cs => cs.isEmpty
  | .anyChars :: ps, cs => (suffixes cs).any (accepts ps)
  | .anyComponents :: ps, cs => (cs :: componentSuffixes cs ++ [[]]).any (accepts ps)
  | .char a :: ps, c :: cs => a == c && accepts ps cs
  | .anyChar :: ps, _ :: cs => accepts ps cs
  | .oneOf rs :: ps, c :: cs => inRanges rs c && accepts ps cs
  | .noneOf rs :: ps, c :: cs => !inRanges rs c && accepts ps cs
  | _ :: _, [] => false

/-- The row for a character with a property in front. -/
def charRow (p : Char → Bool) : List Char → List Bool → List Bool
  | c :: cs, _ :: row => (p c && row.headD false) :: charRow p cs row
  | _, _ => [false]

/-- The row for any characters in front. -/
def charsRow : List Bool → List Bool
  | [] => []
  | accepted :: row =>
    let later := charsRow row
    (accepted || later.headD false) :: later

/-- The row that says of each suffix whether the glob stands for what is behind one of its
separators, or for the end of the text. -/
def separatorRow : List Char → List Bool → List Bool
  | c :: cs, _ :: row =>
    let later := separatorRow cs row
    (c = '/' && row.headD false || later.headD false) :: later
  | _, row => row

/-- The row for any components in front. -/
def componentsRow (cs : List Char) (row : List Bool) : List Bool :=
  row.zipWith (· || ·) (separatorRow cs row)

/-- Says of each suffix of a text, the longest first, whether a glob stands for it. The row is found
from that of the glob without its first part, so that no suffix is looked at twice. -/
def suffixRow : Glob → List Char → List Bool
  | [], cs => (suffixes cs).map List.isEmpty
  | part :: ps, cs =>
    let row := suffixRow ps cs
    match part with
    | .char a => charRow (a == ·) cs row
    | .anyChar => charRow (fun _ => true) cs row
    | .anyChars => charsRow row
    | .anyComponents => componentsRow cs row
    | .oneOf rs => charRow (inRanges rs) cs row
    | .noneOf rs => charRow (fun c => !inRanges rs c) cs row

/-- The glob stands for the whole text, as its row says. -/
def covers (glob : Glob) (cs : List Char) : Bool := (suffixRow glob cs).headD false

@[simp]
theorem head?_suffixes (cs : List Char) : (suffixes cs).head? = some cs := by
  cases cs <;> rfl

theorem charRow_map (p : Char → Bool) (f : List Char → Bool) (cs : List Char) :
    charRow p cs ((suffixes cs).map f) = (suffixes cs).map fun
      | c :: cs => p c && f cs
      | [] => false := by
  induction cs with
  | nil => rfl
  | cons c cs ih => simp [suffixes, charRow, ih]

theorem charsRow_map (f : List Char → Bool) (cs : List Char) :
    charsRow ((suffixes cs).map f) = (suffixes cs).map fun cs => (suffixes cs).any f := by
  induction cs with
  | nil => simp [suffixes, charsRow]
  | cons c cs ih => simp [suffixes, charsRow, ih]

theorem separatorRow_map (f : List Char → Bool) (cs : List Char) :
    separatorRow cs ((suffixes cs).map f) =
      (suffixes cs).map fun cs => (componentSuffixes cs ++ [[]]).any f := by
  induction cs with
  | nil => simp [suffixes, separatorRow, componentSuffixes]
  | cons c cs ih =>
    by_cases h : c = '/' <;>
      simp [suffixes, separatorRow, componentSuffixes, ih, h, Bool.or_assoc]

theorem componentsRow_map (f : List Char → Bool) (cs : List Char) :
    componentsRow cs ((suffixes cs).map f) =
      (suffixes cs).map fun cs => (cs :: componentSuffixes cs ++ [[]]).any f := by
  simp [componentsRow, separatorRow_map, List.zipWith_map]

theorem suffixRow_eq (glob : Glob) (cs : List Char) :
    suffixRow glob cs = (suffixes cs).map glob.accepts := by
  induction glob with
  | nil => simp only [suffixRow]; exact List.map_congr_left fun t _ => by rw [accepts]
  | cons part ps ih =>
    cases part <;>
      simp only [suffixRow, ih, charRow_map, charsRow_map, componentsRow_map] <;>
      refine List.map_congr_left fun t _ => ?_ <;> cases t <;> simp [accepts, suffixes]

theorem covers_eq_accepts (glob : Glob) (cs : List Char) : glob.covers cs = glob.accepts cs := by
  simp [covers, suffixRow_eq]

end Glob

end TreeLint
