import TreeLint.Decimal

namespace TreeLint

/-- A JSON value. A number is an integer when it is written without a point or an exponent and is
not `-0`. An object keeps repeated fields, so that a reader can tell them from single ones. A
garbled value is a string with an escape that stands for no character, or an object with such a
name. It may only stand where nothing is read. -/
inductive Json where
  | null
  | bool (value : Bool)
  | int (value : Int)
  | float (value : Decimal)
  | string (value : String)
  | garbled
  | array (items : List Json)
  | object (fields : List (String × Json))
deriving Repr, Inhabited

namespace Json

mutual

/-- The greatest number of arrays and objects around a value. -/
def depth : Json → Nat
  | array items => depthItems items + 1
  | object fields => depthFields fields + 1
  | _ => 0

def depthItems : List Json → Nat
  | [] => 0
  | v :: vs => max v.depth (depthItems vs)

def depthFields : List (String × Json) → Nat
  | [] => 0
  | (_, v) :: fs => max v.depth (depthFields fs)

end

mutual

/-- No value within is garbled, and no number within is out of range. An integer that fits into a
word is in range. -/
def isLegible : Json → Bool
  | int value => value.natAbs < Decimal.wordBound || (Decimal.ofInt value).isInRange
  | float value => value.isInRange
  | garbled => false
  | array items => legibleItems items
  | object fields => legibleFields fields
  | _ => true

def legibleItems : List Json → Bool
  | [] => true
  | v :: vs => v.isLegible && legibleItems vs

def legibleFields : List (String × Json) → Bool
  | [] => true
  | (_, v) :: fs => v.isLegible && legibleFields fs

end

mutual

/-- The value in which, of several fields of one object with one name, only the last is kept. -/
def keepLast : Json → Json
  | array items => array (keepLastItems items)
  | object fields => object (keepLastFields fields)
  | v => v

def keepLastItems : List Json → List Json
  | [] => []
  | v :: vs => v.keepLast :: keepLastItems vs

def keepLastFields : List (String × Json) → List (String × Json)
  | [] => []
  | (k, v) :: fs =>
    if fs.any fun f => f.1 == k then keepLastFields fs else (k, v.keepLast) :: keepLastFields fs

end

/-- The value of the first field with a name. -/
def field? (name : String) : Json → Option Json
  | object fields => fields.lookup name
  | _ => none

end Json

end TreeLint
