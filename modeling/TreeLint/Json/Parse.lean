import TreeLint.Json.Token

namespace TreeLint.Json

/-- The fields of an object read so far in reverse, or nothing behind a garbled name. -/
abbrev ReadFields := Option (List (String × Json))

/-- An open array with its items so far in reverse, or an open object with its fields so far and the
name of the field whose value is next, unless that is garbled. -/
inductive Frame where
  | array (items : List Json)
  | object (fields : ReadFields) (name : Option String)

/-- What may come next, inside the frames that are open. -/
inductive Expected where
  | value (outer : List Frame)
  | firstItem (outer : List Frame)
  | itemEnd (items : List Json) (outer : List Frame)
  | firstName (outer : List Frame)
  | name (fields : ReadFields) (outer : List Frame)
  | colon (fields : ReadFields) (name : Option String) (outer : List Frame)
  | fieldEnd (fields : ReadFields) (outer : List Frame)
  | nothing (value : Json)

/-- A value is complete: it goes into the innermost open frame. -/
def complete (v : Json) : List Frame → Expected
  | [] => .nothing v
  | .array items :: outer => .itemEnd (v :: items) outer
  | .object fields name :: outer => .fieldEnd (do return (← name, v) :: (← fields)) outer

def ofReadFields : ReadFields → Json
  | some fields => .object fields.reverse
  | none => .garbled

/-- The name of a field, and nothing in its place when it is garbled. -/
def name? : Json → Option (Option String)
  | .string name => some (some name)
  | .garbled => some none
  | _ => none

def startValue (outer : List Frame) : Token → Option Expected
  | .openBracket => some (.firstItem outer)
  | .openBrace => some (.firstName outer)
  | .atom v => some (complete v outer)
  | _ => none

def stepParse : Expected → Token → Option Expected
  | .value outer, t => startValue outer t
  | .firstItem outer, .closeBracket => some (complete (.array []) outer)
  | .firstItem outer, t => startValue (.array [] :: outer) t
  | .itemEnd items outer, .comma => some (.value (.array items :: outer))
  | .itemEnd items outer, .closeBracket => some (complete (.array items.reverse) outer)
  | .firstName outer, .closeBrace => some (complete (.object []) outer)
  | .firstName outer, .atom v => (name? v).map fun name => .colon (some []) name outer
  | .name fields outer, .atom v => (name? v).map fun name => .colon fields name outer
  | .colon fields name outer, .colon => some (.value (.object fields name :: outer))
  | .fieldEnd fields outer, .comma => some (.name fields outer)
  | .fieldEnd fields outer, .closeBrace => some (complete (ofReadFields fields) outer)
  | _, _ => none

def parseFrom : Expected → List Token → Option Expected
  | e, [] => some e
  | e, t :: ts => do parseFrom (← stepParse e t) ts

def ofTokens? (ts : List Token) : Option Json :=
  match parseFrom (.value []) ts with
  | some (.nothing v) => some v
  | _ => none

def parse? (text : String) : Option Json := do
  ofTokens? (← tokens? text.toList)

end TreeLint.Json
