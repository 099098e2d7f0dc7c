import SqlTemplate.Dialect
import SqlTemplate.Json

/-!
The two sides of a database as seen from here: writing literals and names, and running SQL.
-/

namespace SqlTemplate

/-- What runs an SQL text: it answers rows, or a cause why there are none. -/
structure Backend where
  execute : String → Except String (List Row)

/-- Where SQL text goes to: how scalars are written there, how columns are named if that is possible,
and what runs the text if anything does. -/
structure Adapter where
  literal : Scalar → String
  identifier : String → Option String
  backend : Option Backend

def Dialect.adapter (d : Dialect) : Adapter :=
  { literal := d.literal
    identifier := fun name => some (d.identifier name)
    backend := none }

def Dialect.connected (d : Dialect) (backend : Backend) : Adapter :=
  { d.adapter with backend := some backend }

/-- Answers the SQL text itself, as one row. -/
def Backend.echo : Backend :=
  ⟨fun sql => .ok [OrderedMap.empty.insert "sql" (Json.string sql)]⟩

/-- Writes every scalar and name as it is, for dry runs. -/
def Adapter.echo : Adapter :=
  { literal := Scalar.display
    identifier := some
    backend := some Backend.echo }

end SqlTemplate
