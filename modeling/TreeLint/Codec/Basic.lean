import TreeLint.Json.Value

namespace TreeLint.Codec

abbrev Record := List (String × Json)

/-- A known name stands for at most one field. -/
def isSingle (fields : Record) (name : String) : Bool :=
  (fields.filter fun f => f.1 == name).length ≤ 1

/-- Reads a record with fields of these names. It is an object, in any order and with unknown fields
left aside, or an array of its fields in order, from which fields may be missing at the end. -/
def record? (names : List String) : Json → Option Record
  | .object fields => if names.all (isSingle fields) then some fields else none
  | .array items => if items.length ≤ names.length then some (names.zip items) else none
  | _ => none

/-- Where a stored value stands: in the text of a document, or in a message that was read before. -/
inductive Medium where
  | text | message
deriving DecidableEq, Repr

/-- Reads the record that goes with the tag of an enumeration value. Only in a text may it be an
array. -/
def payload? (medium : Medium) (names : List String) : Json → Option Record
  | .array items => if medium = .text then record? names (.array items) else none
  | j => record? names j

namespace Record

def required? (r : Record) (name : String) : Option Json := r.lookup name

/-- A field that may be missing or `null`. -/
def optional (r : Record) (name : String) : Option Json :=
  match r.lookup name with
  | some .null => none
  | v => v

end Record

def string? : Json → Option String
  | .string s => some s
  | _ => none

def bool? : Json → Option Bool
  | .bool b => some b
  | _ => none

def items? : Json → Option (List Json)
  | .array items => some items
  | _ => none

def offset? : Json → Option UInt32
  | .int n => if 0 ≤ n ∧ n < 4294967296 then some (UInt32.ofNat n.toNat) else none
  | _ => none

def int64? : Json → Option Int64
  | .int n => if -9223372036854775808 ≤ n ∧ n < 9223372036854775808 then some (Int64.ofInt n) else none
  | _ => none

namespace Record

def string? (r : Record) (name : String) : Option String := do
  Codec.string? (← r.required? name)

/-- A list that has to be there. -/
def items? (r : Record) (name : String) : Option (List Json) := do
  Codec.items? (← r.required? name)

/-- A list that is empty when it is missing. -/
def itemsOrNone? (r : Record) (name : String) : Option (List Json) :=
  match r.lookup name with
  | some v => Codec.items? v
  | none => some []

end Record

/-- The tag of an enumeration value and what goes with it: a tag alone, or an object with the tag as
the only field name. -/
def variant? : Json → Option (String × Option Json)
  | .string tag => some (tag, none)
  | .object [(tag, payload)] => some (tag, some payload)
  | _ => none

/-- The tag of an enumeration value that has nothing to go with it. -/
def plainTag? (j : Json) : Option String :=
  match variant? j with
  | some (tag, none) => some tag
  | some (tag, some .null) => some tag
  | _ => none

end TreeLint.Codec
