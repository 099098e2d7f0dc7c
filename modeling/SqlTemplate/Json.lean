import SqlTemplate.Number.Binary64
import SqlTemplate.OrderedMap

namespace SqlTemplate

/-- A number of a JSON text: a whole number of at most 64 bits is kept exactly, everything else is a
double. -/
inductive JsonNumber where
  | whole (n : Int)
  | real (x : Binary64)
deriving DecidableEq, Repr

/-- A JSON value. An object keeps the order of its keys. -/
inductive Json where
  | null
  | bool (b : Bool)
  | number (n : JsonNumber)
  | string (s : String)
  | array (items : List Json)
  | object (fields : OrderedMap Json)
deriving Inhabited

namespace Json

def whole (n : Int) : Json := .number (.whole n)

def ofFields (fields : List (String × Json)) : Json := .object (OrderedMap.ofList fields)

def field? (name : String) : Json → Option Json
  | .object fields => fields.get? name
  | _ => none

def text? : Json → Option String
  | .string s => some s
  | _ => none

end Json

/-- A result row: a value for each column. -/
abbrev Row := OrderedMap Json

end SqlTemplate
