import SqlTemplate.Adapter
import SqlTemplate.Template

/-!
How a value is written for a placeholder. Scalars are left to the adapter; everything that has a
shape is put together here. Conditions hold templates and are written where templates are resolved.
-/

namespace SqlTemplate

namespace Adapter

def commaList (texts : List String) : String := ", ".intercalate texts

def parenthesized (text : String) : String := "(" ++ text ++ ")"

mutual

/-- A scalar as a literal, a sequence as a tuple. -/
def itemText (a : Adapter) (key : String) : Value → Except Error String
  | .scalar s => .ok (a.literal s)
  | .sequence items => do
    let texts ← itemTexts a key items
    return parenthesized (commaList texts)
  | .record _ => .error (.invalid key .nestedScalars)
  | .condition _ => .error (.invalid key .nestedScalars)

def itemTexts (a : Adapter) (key : String) : List Value → Except Error (List String)
  | [] => .ok []
  | item :: items => do
    let text ← itemText a key item
    let texts ← itemTexts a key items
    return text :: texts

end

/-- A scalar as a literal, a sequence as a tuple. A sequence that holds sequences is a list of tuples
and has no parentheses of its own. -/
def staticText (a : Adapter) (key : String) : Value → Except Error String
  | .scalar s => .ok (a.literal s)
  | .sequence items => do
    let texts ← a.itemTexts key items
    return if items.any Value.isSequence then commaList texts else parenthesized (commaList texts)
  | _ => .error (.invalid key .scalarOrSequence)

def rawText (key : String) : Value → Except Error String
  | .scalar s => .ok s.display
  | _ => .error (.invalid key .scalar)

/-- What a field contributes to a record: its value, after its column name for an update. -/
def fieldText (a : Adapter) (p : Placeholder) (fields : Record) (field : String) :
    Except Error String := do
  let some value := fields.get? field | .error (.missing [p.key ++ "." ++ field])
  let text ← a.staticText p.key value
  if p.modifier = .update then
    let some column := a.identifier field | .error (.lacking .identifiers)
    return column ++ " = " ++ text
  return text

/-- The fields of the schema, or all fields in their own order: a tuple, or assignments for an
update. -/
def recordText (a : Adapter) (p : Placeholder) (fields : Record) : Except Error String := do
  let texts ← (p.fields?.getD fields.keys).mapM (a.fieldText p fields)
  return if p.modifier = .update then commaList texts else parenthesized (commaList texts)

def objectItemText (a : Adapter) (p : Placeholder) : Value → Except Error String
  | .record fields => a.recordText p fields
  | other => .error (.invalidObject p.key (.itemNotRecord other.kind))

/-- A record, or the records of a sequence. Without a schema a sequence cannot be used for an
update. -/
def objectText (a : Adapter) (p : Placeholder) : Value → Except Error String
  | .record fields => a.recordText p fields
  | .sequence items =>
    if p.schema.isNone && p.modifier == .update then
      .error (.invalidObject p.key .updatesNeedSchema)
    else do
      let texts ← items.mapM (a.objectItemText p)
      return commaList texts
  | other => .error (.invalidObject p.key (.notRecords other.kind))

/-- The fragment with its first marker replaced by the value: `*!` takes the value as it is. -/
def fragmentText (a : Adapter) (p : Placeholder) (value : Value) : Except Error String := do
  let some fragment := p.schema | .error (.malformed p.raw .notOneMarker)
  match fragment.toList.dropWhile (· != '*') with
  | [] => .error (.malformed p.raw .notOneMarker)
  | _ :: after =>
    let before := String.ofList (fragment.toList.takeWhile (· != '*'))
    match after with
    | '!' :: rest =>
      let text ← rawText p.key value
      return before ++ text ++ String.ofList rest
    | rest =>
      let text ← a.staticText p.key value
      return before ++ text ++ String.ofList rest

/-- The text of a value that holds no templates of its own. -/
def valueText (a : Adapter) (p : Placeholder) (value : Value) : Except Error String :=
  match p.modifier with
  | .plain => a.staticText p.key value
  | .raw => rawText p.key value
  | .condition => .error (.invalid p.key .condition)
  | .insert | .update => a.objectText p value
  | .optional => a.fragmentText p value

end Adapter

end SqlTemplate
