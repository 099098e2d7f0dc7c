import SqlTemplate.Dialect.Quoted
import SqlTemplate.Error
import SqlTemplate.Value

/-!
The varieties of SQL: their literals, their identifiers, and the connection addresses that name
them.
-/

namespace SqlTemplate

/-- A variety of SQL: how literals and identifiers are written in it. -/
inductive Dialect where
  | postgres
  | mysql
  | sqlite
  | mssql
deriving DecidableEq, Repr

namespace Dialect

def name : Dialect → String
  | .postgres => "postgres"
  | .mysql => "mysql"
  | .sqlite => "sqlite"
  | .mssql => "mssql"

def ofName? : String → Option Dialect
  | "postgres" => some .postgres
  | "mysql" => some .mysql
  | "sqlite" => some .sqlite
  | "mssql" => some .mssql
  | _ => none

def ofScheme? : String → Option Dialect
  | "postgres" | "postgresql" => some .postgres
  | "mysql" | "mariadb" => some .mysql
  | "sqlite" => some .sqlite
  | "mssql" | "sqlserver" => some .mssql
  | _ => none

/-- The dialect of the database at a connection URL, by what stands before its first colon. ASCII
letters of either case are the same there. -/
def ofUrl? (url : String) : Option Dialect :=
  ofScheme? (String.ofList ((url.toList.takeWhile (· != ':')).map Char.toLower))

def ofConnection (url : String) : Except Error Dialect :=
  match ofUrl? url with
  | some .mssql =>
    .error (.connection
      "no sqlx driver for SQL Server; use the mssql dialect to render SQL only")
  | some d => .ok d
  | none => .error (.connection ("unsupported database URL: " ++ url))

/-- The literal of a text. PostgreSQL takes a backslash for an escape only after an `E`. -/
def textLiteral : Dialect → List Char → List Char
  | .postgres, cs =>
    if '\\' ∈ cs then 'E' :: quoted '\'' '\'' (doubled '\\' cs) else quoted '\'' '\'' cs
  | .mysql, cs => '\'' :: (backslashed cs ++ ['\''])
  | .sqlite, cs | .mssql, cs => quoted '\'' '\'' cs

def boolLiteral : Dialect → Bool → String
  | .postgres, b | .mysql, b => if b then "TRUE" else "FALSE"
  | .sqlite, b | .mssql, b => if b then "1" else "0"

/-- Only PostgreSQL can hold a number that is not finite. -/
def floatLiteral (d : Dialect) (x : Binary64) : String :=
  if x.isFinite then x.text
  else if d = .postgres then
    if x.isNaN then "'NaN'" else if x.isNegative then "'-Infinity'" else "'Infinity'"
  else "NULL"

def literal (d : Dialect) : Scalar → String
  | .null => "NULL"
  | .bool b => d.boolLiteral b
  | .int n => toString n
  | .float x => d.floatLiteral x
  | .text s => String.ofList (d.textLiteral s.toList)

/-- Words that PostgreSQL does not take for a name unless they are quoted. -/
def reservedWords : List String :=
  ["order", "group", "user", "table", "select", "from", "where", "join", "left", "right", "inner",
    "outer", "on", "and", "or", "not", "null", "true", "false", "limit", "offset", "as", "in", "is",
    "like", "between", "having", "union", "all", "distinct", "case", "when", "then", "else", "end",
    "create", "alter", "drop", "insert", "update", "delete", "index", "key", "primary", "foreign",
    "references", "default", "constraint", "check"]

/-- Lowercase ASCII letters, digits and underscores, not starting with a digit. -/
def isPlainName : List Char → Bool
  | [] => false
  | c :: cs =>
    (c.isLower || c == '_') && cs.all fun d => d.isLower || d.isDigit || d == '_'

/-- The name itself where PostgreSQL reads it back unchanged, else the name in quotes. -/
def quotedIfNeeded (name : String) : String :=
  if isPlainName name.toList && !reservedWords.contains name then name
  else String.ofList (quoted '"' '"' name.toList)

def identifier : Dialect → String → String
  | .postgres, name => quotedIfNeeded name
  | .mysql, name => String.ofList (quoted '\x60' '\x60' name.toList)
  | .sqlite, name => String.ofList (quoted '"' '"' name.toList)
  | .mssql, name => String.ofList (quoted '[' ']' name.toList)

end Dialect

end SqlTemplate
