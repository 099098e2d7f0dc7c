import SqlTemplate.Resolution

/-!
A template bound to the calls that resolve and run it.
-/

namespace SqlTemplate

/-- A template to be called, perhaps by name. -/
structure Query where
  name : Option String
  template : Template

/-- An SQL text together with the backend that will run it. -/
structure Prepared where
  sql : String
  backend : Backend

/-- Runs the text. A cause why there are no rows is reported along with the text. -/
def Prepared.run (p : Prepared) : Except Error (List Row) :=
  match p.backend.execute p.sql with
  | .ok rows => .ok rows
  | .error cause => .error (.rejected p.sql cause)

namespace Query

def ofText (sql : String) : Query := ⟨none, .ofText sql⟩

def named (name sql : String) : Query := ⟨some name, .ofText sql⟩

def sql (q : Query) : String := q.template.text

def placeholders (q : Query) : List Placeholder := q.template.placeholders

def resolve (q : Query) (a : Adapter) (params : Params) : Except Error String :=
  a.resolve q.template params

/-- All that can fail before anything is sent: first the lack of a backend, then the parameters. -/
def prepare (q : Query) (a : Adapter) (params : Params) : Except Error Prepared :=
  match a.backend with
  | none => .error (.lacking .execution)
  | some backend => do
    let sql ← q.resolve a params
    return ⟨sql, backend⟩

def run (q : Query) (a : Adapter) (params : Params) : Except Error (List Row) := do
  let prepared ← q.prepare a params
  prepared.run

end Query

end SqlTemplate
