import SqlTemplate.Files
import SqlTemplate.Query
import SqlTemplate.Text.Alphanumeric
import SqlTemplate.Text.Line

/-!
Queries in files. Marker lines cut a file into blocks, each a query with a name; a file without a
marker is one query, named after the file.
-/

namespace SqlTemplate

namespace Marker

def isGap (c : Char) : Bool := c == ' ' || c == '\t'

def isNameChar (c : Char) : Bool := Text.isAlphanumeric c || c == '_' || c == '-'

def withoutReturns (line : List Char) : List Char :=
  (line.reverse.dropWhile (· == '\r')).reverse

/-- The name on a marker line, such as `-- name: total`. Spaces and tabs may stand around every part
of it, and nothing else may. -/
def read (line : List Char) : Option (List Char) := do
  let afterDashes ← ['-', '-'].isPrefixOf? ((withoutReturns line).dropWhile isGap)
  let afterWord ← ['n', 'a', 'm', 'e'].isPrefixOf? (afterDashes.dropWhile isGap)
  let afterColon ← [':'].isPrefixOf? (afterWord.dropWhile isGap)
  let rest := afterColon.dropWhile isGap
  let name := rest.takeWhile isNameChar
  if name.isEmpty || !((rest.dropWhile isNameChar).dropWhile isGap).isEmpty then none
  else some name

end Marker

/-- A marker's name and the lines up to the next marker. -/
structure QueryBlock where
  name : List Char
  lines : List (List Char)
deriving DecidableEq, Repr

namespace QueryBlock

/-- The lines before the first marker, and the blocks. -/
def cut : List (List Char) → List (List Char) × List QueryBlock
  | [] => ([], [])
  | line :: rest =>
    let (leading, blocks) := cut rest
    match Marker.read line with
    | some name => ([], ⟨name, leading⟩ :: blocks)
    | none => (line :: leading, blocks)

/-- The SQL text of some lines. -/
def body (lines : List (List Char)) : List Char := Text.trim (Text.unlines lines)

/-- The first name that stands earlier in the list too. -/
def firstRepeated (seen : List (List Char)) : List (List Char) → Option (List Char)
  | [] => none
  | name :: names => if name ∈ seen then some name else firstRepeated (name :: seen) names

end QueryBlock

/-- The name of a file's only query: the last component of the path up to its first dot. -/
def defaultQueryName (path : String) : String :=
  let components := (pathComponents path).filter (!isIdle ·)
  let base := match components.getLast? with
    | some ".." => path
    | some component => component
    | none => path
  String.ofList (base.toList.takeWhile (· != '.'))

/-- The queries in the text of a file, with their names: either one query without a marker, or any
number of queries after a marker each. -/
def splitQueries (text path : String) : Except Error (List (String × String)) :=
  let (leading, blocks) := QueryBlock.cut (Text.lines text.toList)
  match QueryBlock.firstRepeated [] (blocks.map QueryBlock.name) with
  | some name => .error (.duplicateQuery (String.ofList name))
  | none =>
    let start := QueryBlock.body leading
    if blocks.isEmpty then
      .ok (if start.isEmpty then [] else [(defaultQueryName path, String.ofList start)])
    else if !start.isEmpty then .error (.mixedFile path)
    else .ok (blocks.map fun b => (String.ofList b.name, String.ofList (QueryBlock.body b.lines)))

/-- The queries of a file, in the order of the file. -/
structure QueryFile where
  queries : List Query

namespace QueryFile

def ofText (text path : String) : Except Error QueryFile := do
  let pairs ← splitQueries text path
  return ⟨pairs.map fun pair => Query.named pair.1 pair.2⟩

def load (files : Files) (path : String) : Except Error QueryFile :=
  match files.read path with
  | .ok text => ofText text path
  | .error fault => .error (.unreadable fault.text)

def names (file : QueryFile) : List String := file.queries.filterMap Query.name

def size (file : QueryFile) : Nat := file.queries.length

def get? (file : QueryFile) (name : String) : Option Query :=
  file.queries.find? (·.name == some name)

def require (file : QueryFile) (name : String) : Except Error Query :=
  match file.get? name with
  | some query => .ok query
  | none => .error (.unknownQuery name)

end QueryFile

example : (splitQueries "\n-- name: a\r\nSELECT 1\r\n\r\n --name :b-2\t\n" "x.sql").toOption =
    some [("a", "SELECT 1"), ("b-2", "")] := by decide +kernel

example : defaultQueryName "q/count.v1.sql" = "count" ∧ defaultQueryName "a/.." = "a/" := by
  decide +kernel

end SqlTemplate
