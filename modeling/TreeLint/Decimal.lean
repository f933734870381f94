namespace TreeLint

/-- A number by its digits in front of the point and behind it, and its exponent. -/
structure Decimal where
  isNegative : Bool
  whole : List Char
  fraction : List Char
  exponent : Int
deriving DecidableEq, Repr

namespace Decimal

/-- The least number that a word does not hold. -/
def wordBound : Nat := 18446744073709551616

/-- The least number that rounds to infinity in double precision. -/
def infinityBound : Nat := Nat.pow 2 1024 - Nat.pow 2 970

/-- The greatest exponent whose power of ten is a double-precision number. -/
def maxExponent : Int := 308

/-- Puts digits behind a number until the next one would not fit into a word. Gives the word, and
the digits that are left. -/
def fillWord (word : Nat) : List Char → Nat × List Char
  | [] => (word, [])
  | d :: ds =>
    let next := 10 * word + (d.toNat - '0'.toNat)
    if next < wordBound then fillWord next ds else (word, d :: ds)

/-- The nearest number with 53 significant binary digits, the even one of two. -/
def roundToDouble (n : Nat) : Nat :=
  let unit := Nat.pow 2 (n.log2 - 52)
  let quotient := n / unit
  let rest := n % unit
  if 2 * rest > unit || 2 * rest = unit && quotient % 2 = 1 then (quotient + 1) * unit
  else quotient * unit

/-- The word that the digits of a number fill, and the power of ten that it is scaled by. -/
def scaled (d : Decimal) : Nat × Int :=
  let (whole, dropped) := fillWord 0 d.whole
  let (word, rest) := fillWord whole d.fraction
  (word, d.exponent + dropped.length - (d.fraction.length - rest.length))

/-- A number is within the range of double-precision numbers when it is read into a word. -/
def isInRange (d : Decimal) : Bool :=
  let (word, exponent) := d.scaled
  if word = 0 || exponent < 0 then true
  else
    exponent ≤ maxExponent &&
      roundToDouble word * roundToDouble (Nat.pow 10 exponent.toNat) < infinityBound

/-- A number is beyond the range of double-precision numbers when it is rounded at once. Only a
number with as many places in front of the point as the bound has to be compared with it. -/
def roundsToInfinity (d : Decimal) : Bool :=
  let digits := (d.whole ++ d.fraction).dropWhile (· = '0')
  let mantissa := Nat.ofDigitChars 10 digits 0
  let exponent := d.exponent - d.fraction.length
  let places := digits.length + exponent
  if digits.isEmpty || places < maxExponent + 1 then false
  else if maxExponent + 1 < places then true
  else if 0 ≤ exponent then infinityBound ≤ mantissa * Nat.pow 10 exponent.toNat
  else infinityBound * Nat.pow 10 (-exponent).toNat ≤ mantissa

def ofInt (n : Int) : Decimal := ⟨n < 0, Nat.toDigits 10 n.natAbs, [], 0⟩

end Decimal

end TreeLint
