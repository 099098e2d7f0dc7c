import SqlTemplate.Command.Report
import SqlTemplate.Json.Writer
import SqlTemplate.Settings
import SqlTemplate.Sorting
import SqlTemplate.Text.Padding

/-!
Result rows as lines of text. The names, the rule and the rows of a table are equally wide. A table with
a column of more than 65535 characters is not printed.
-/

namespace SqlTemplate

/-- A column of a printed table. The width is in characters. -/
structure Column where
  name : String
  width : Nat
deriving DecidableEq, Repr

namespace Table

def cellText : Json → String
  | .null => "NULL"
  | .string s => s
  | json => json.compact

/-- The cell of a row in a column. A row without the column has an empty cell there. -/
def cell (row : Row) (column : String) : String := ((row.get? column).map cellText).getD ""

/-- Wide enough for every cell, and for the name counted in bytes. -/
def width (rows : List Row) (column : String) : Nat :=
  (rows.map fun row => (cell row column).length).foldl max column.utf8ByteSize

def columns (rows : List Row) : List Column :=
  match rows with
  | [] => []
  | first :: _ =>
    (sortStable (fun a b => decide (a ≤ b)) first.keys).map fun name => ⟨name, width rows name⟩

def line? (columns : List Column) (text : String → String) : Option String := do
  let cells ← columns.mapM fun column => Text.padded? column.width (text column.name)
  return " │ ".intercalate cells

def rule (columns : List Column) : String :=
  "─┼─".intercalate (columns.map fun column => String.ofList (List.replicate column.width '─'))

/-- All lines of a table, or none. The widths are those of the first line in every other one, so no line
is refused after others were printed. -/
def lines? (rows : List Row) : Option (List String) := do
  let columns := columns rows
  let header ← line? columns id
  let body ← rows.mapM fun row => line? columns (cell row)
  return header :: rule columns :: body

example : lines? [.ofList [("é", .whole 1), ("b", .string "x")], .ofList [("b", .null), ("c", .null)]] =
    some ["b    │ é ", "─────┼───", "x    │ 1 ", "NULL │   "] := by
  decide +kernel

end Table

def OutputFormat.lines (format : OutputFormat) (rows : List Row) : Except Failure (List String) :=
  if rows.isEmpty then .ok ["(no results)"]
  else match format with
    | .json => .ok [(Json.array (rows.map Json.object)).pretty 0]
    | .table =>
      match Table.lines? rows with
      | some lines => .ok (lines ++ ["", toString rows.length ++ " row(s) returned"])
      | none => .error .columnTooWide

@[simp]
theorem OutputFormat.lines_nil (format : OutputFormat) : format.lines [] = .ok ["(no results)"] := rfl

end SqlTemplate
