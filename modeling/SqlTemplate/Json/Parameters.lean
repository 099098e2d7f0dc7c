import SqlTemplate.Error
import SqlTemplate.Json.Reader
import SqlTemplate.Value

/-!
Values, parameters and conditions in JSON.
-/

namespace SqlTemplate

mutual

def Value.ofJson : Json → Value
  | .null => .scalar .null
  | .bool b => .scalar (.bool b)
  | .number (.whole n) => .scalar (Scalar.ofInteger n)
  | .number (.real x) => .scalar (.float x)
  | .string s => .scalar (.text s)
  | .array items => .sequence (Value.ofItems items)
  | .object ⟨fields⟩ => .record (OrderedMap.ofList (Value.ofFields fields))

def Value.ofItems : List Json → List Value
  | [] => []
  | item :: items => Value.ofJson item :: Value.ofItems items

def Value.ofFields : List (String × Json) → List (String × Value)
  | [] => []
  | (name, value) :: fields => (name, Value.ofJson value) :: Value.ofFields fields

end

def isConditionKey (key : String) : Bool := key.toList.head? == some '~'

mutual

/-- The parameters in an object: under a key that starts with `~` stands a condition, under any
other key a value. -/
def Params.ofJson : Json → Except Error Params
  | .object ⟨fields⟩ => do
    let entries ← Params.entriesOfFields fields
    return ParamsOf.ofList entries
  | _ => .error (.json "parameters must be a JSON object")

def Params.entriesOfFields : List (String × Json) → Except Error (List (String × Value))
  | [] => .ok []
  | (key, json) :: fields =>
    if isConditionKey key then do
      let condition ← Condition.ofJson key json
      let entries ← Params.entriesOfFields fields
      return (key, .condition condition) :: entries
    else do
      let entries ← Params.entriesOfFields fields
      return (key, Value.ofJson json) :: entries

/-- The condition in an object with a text `operator` and an array `parts`; `name` is for errors. -/
def Condition.ofJson (name : String) : Json → Except Error Condition
  | .object ⟨fields⟩ =>
    match fields.lookup "operator" with
    | some (.string operator) => do
      let parts ← Condition.partsOfFields name fields
      return ⟨operator, parts⟩
    | _ => .error (.invalid name .operatorText)
  | _ => .error (.invalid name .conditionObject)

/-- The parts in the field of that name. -/
def Condition.partsOfFields (name : String) :
    List (String × Json) → Except Error (List (String × Params))
  | [] => .error (.invalid name .partsArray)
  | (key, json) :: fields =>
    if key = "parts" then
      match json with
      | .array items => Condition.partsOfItems name items
      | _ => .error (.invalid name .partsArray)
    else Condition.partsOfFields name fields

/-- Each part is an array of a template and, if it needs any, its parameters. -/
def Condition.partsOfItems (name : String) : List Json → Except Error (List (String × Params))
  | [] => .ok []
  | .array [.string sql] :: items => do
    let parts ← Condition.partsOfItems name items
    return (sql, .empty) :: parts
  | .array [.string sql, json] :: items => do
    let params ← Params.ofJson json
    let parts ← Condition.partsOfItems name items
    return (sql, params) :: parts
  | _ :: _ => .error (.invalid name .partPairs)

end

/-- The parameters in a JSON text. -/
def Params.ofText (text : String) : Except Error Params :=
  match Json.read text with
  | some json => Params.ofJson json
  | none => .error (.json "unreadable")

end SqlTemplate
