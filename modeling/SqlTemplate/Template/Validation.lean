import SqlTemplate.Error
import SqlTemplate.Template
import SqlTemplate.Value

/-!
What parameters leave open in a template, found out before anything is filled in.
-/

namespace SqlTemplate

/-- What parameters leave open in a template. -/
structure Validation where
  /-- The keys without a value, `?` and `key.field` among them, each once. -/
  missing : List String
  /-- The optional keys without a value, each once. -/
  unresolvedOptional : List String
  /-- Every key of a named placeholder with the first placeholder that has it. -/
  placeholders : List (String × Placeholder)
deriving DecidableEq, Repr

namespace Validation

def pushNew (list : List String) (entry : String) : List String :=
  if entry ∈ list then list else list ++ [entry]

def get? (v : Validation) (key : String) : Option Placeholder := v.placeholders.lookup key

def isValid (v : Validation) : Bool := v.missing.isEmpty

/-- The fragment of an optional placeholder holds exactly one marker. -/
def checkFragment (p : Placeholder) : Except Error Unit :=
  match p.schema with
  | none => .error (.malformed p.raw .absent)
  | some fragment =>
    if fragment.toList.count '*' = 1 then .ok () else .error (.malformed p.raw .notOneMarker)

def recordsOf (key : String) : Value → Except Error (List Record)
  | .record fields => .ok [fields]
  | .sequence items => items.mapM fun item =>
    match item with
    | .record fields => .ok fields
    | other => .error (.invalidObject key (.itemNotRecord other.kind))
  | other => .error (.invalidObject key (.notRecords other.kind))

def missingField (key field : String) : String := key ++ "." ++ field

/-- The fields that some of the records lack, record by record. -/
def lackedFields (key : String) (fields : List String) (records : List Record) : List String :=
  records.flatMap fun r => (fields.filter fun field => !r.contains field).map (missingField key)

/-- Notes what the value of one placeholder leaves open. -/
def note (params : Params) (v : Validation) (p : Placeholder) : Except Error Validation :=
  match params.get? p.key with
  | none =>
    if p.modifier = .optional then
      .ok { v with unresolvedOptional := pushNew v.unresolvedOptional p.key }
    else .ok { v with missing := pushNew v.missing p.key }
  | some value =>
    match p.modifier.isObject, p.fields? with
    | true, some fields => do
      let records ← recordsOf p.key value
      return { v with missing := (lackedFields p.key fields records).foldl pushNew v.missing }
    | _, _ => .ok v

def examine (params : Params) (v : Validation) (p : Placeholder) : Except Error Validation := do
  if p.modifier = .optional then checkFragment p
  let noted ← note params v p
  if (noted.get? p.key).isSome then return noted
  return { noted with placeholders := noted.placeholders ++ [(p.key, p)] }

end Validation

/-- Whether there is one positional value for each `:?`. -/
def Template.positionalMatch (t : Template) (params : Params) : Bool :=
  match params.positional with
  | some (.sequence items) => items.length == t.positionalCount
  | _ => false

/-- Checks parameters against a template. Missing values are collected; a value of the wrong shape
for a schema and a fragment without its one marker are errors at once. -/
def Template.validate (t : Template) (params : Params) : Except Error Validation :=
  let missing := if t.positionalCount = 0 || t.positionalMatch params then [] else ["?"]
  t.namedPlaceholders.foldlM (Validation.examine params) ⟨missing, [], []⟩

end SqlTemplate
