import SqlTemplate.Dialect
import SqlTemplate.Files
import SqlTemplate.Settings.Toml

/-!
The settings file: a database, a dialect and a form of output.
-/

namespace SqlTemplate

/-- How result rows are printed. -/
inductive OutputFormat where
  | table
  | json
deriving DecidableEq, Repr

def OutputFormat.ofName? : String → Option OutputFormat
  | "table" => some .table
  | "json" => some .json
  | _ => none

def OutputFormat.name : OutputFormat → String
  | .table => "table"
  | .json => "json"

/-- What a settings file sets. -/
structure Settings where
  databaseUrl : Option String
  dialect : Option Dialect
  format : OutputFormat
deriving DecidableEq, Repr

namespace Settings

def default : Settings := ⟨none, none, .table⟩

def names : List String := ["database_url", "dialect", "format"]

/-- The settings in a document. An unknown name or an unknown choice is refused. -/
def ofDocument? (d : Toml.Document) : Option Settings := do
  if !d.names.all names.contains then none
  let databaseUrl ← d.text? "database_url"
  let dialect ← match ← d.choice? "dialect" with
    | some name => (Dialect.ofName? name).map some
    | none => some none
  let format ← match ← d.choice? "format" with
    | some name => OutputFormat.ofName? name
    | none => some .table
  return ⟨databaseUrl, dialect, format⟩

def ofText (text : String) : Except Error Settings :=
  match (Toml.read text).bind ofDocument? with
  | some settings => .ok settings
  | none => .error (.settings "not a valid settings file")

/-- The file looked up in the working directory. -/
def fileName : String := "plainsql.toml"

/-- The files looked up, first to last. -/
def searchPaths (userDirectory : Option String) : List String :=
  match userDirectory with
  | some directory => [fileName, directory ++ "/plainsql/config.toml"]
  | none => [fileName]

/-- The settings in the given file, or else in the first file found, or else the defaults. -/
def load (files : Files) (userDirectory explicit : Option String) : Except Error Settings :=
  match explicit.orElse fun _ => (searchPaths userDirectory).find? files.exist with
  | none => .ok default
  | some path =>
    match files.read path with
    | .ok text => ofText text
    | .error fault => .error (.settings (path ++ ": " ++ fault.text))

/-- The dialect that is set, or else that of the database, or else PostgreSQL. -/
def effectiveDialect (s : Settings) : Dialect :=
  (s.dialect.orElse fun _ => s.databaseUrl.bind Dialect.ofUrl?).getD .postgres

example : (ofText "format = 'json' # rows\r\n[dialect.mysql]\n").toOption =
    some ⟨none, some .mysql, .json⟩ := by decide +kernel

end Settings

end SqlTemplate
