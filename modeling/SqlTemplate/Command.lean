import SqlTemplate.Command.Arguments
import SqlTemplate.Command.Reference
import SqlTemplate.Command.Report
import SqlTemplate.Command.Table
import SqlTemplate.Json.Parameters
import SqlTemplate.QueryFile
import SqlTemplate.Template.Validation

/-!
The command line. `Command.run` says what a run of the program prints and how it ends, given its
arguments and what it finds around it.
-/

namespace SqlTemplate

/-- What a command finds around it: files, the directory of its user's settings, the database address
that is set for it, and databases to connect to. -/
structure Surroundings where
  files : Files
  userDirectory : Option String
  databaseUrl : Option String
  connect : Dialect → String → Except Error Backend

namespace Source

/-- The template given as a text, or the named query of a file, or all queries of a file. -/
def queries (source : Source) (files : Files) : Except Failure (List Query) :=
  match source.sql, source.file with
  | some sql, _ => .ok [.ofText sql]
  | none, none => .error .noTemplate
  | none, some path =>
    match QueryFile.load files path, source.name with
    | .error _, _ => .error (.fileNotLoaded path)
    | .ok file, none => .ok file.queries
    | .ok file, some name => do
      let query ← (file.require name).mapError .failed
      return [query]

def query (source : Source) (files : Files) : Except Failure Query := do
  match ← source.queries files with
  | [query] => .ok query
  | queries => .error (.notOneQuery queries.length (queries.filterMap Query.name))

/-- The text of the parameters. After an `@` stands the path of a file that holds it. -/
def paramsText (files : Files) (argument : String) : Except Failure String :=
  match argument.toList with
  | '@' :: cs =>
    let path := String.ofList cs
    (files.read path).mapError fun _ => .paramsNotRead path
  | _ => .ok argument

def parameters (source : Source) (files : Files) : Except Failure Params :=
  match source.params with
  | none => .ok .empty
  | some argument => do
    let text ← paramsText files argument
    match Json.read text with
    | none => .error .paramsNotJson
    | some json => (Params.ofJson json).mapError .failed

end Source

namespace Query

def placeholderLine (p : Placeholder) : String :=
  let schema := match p.schema with
    | some body => "\x7b" ++ body ++ "\x7d"
    | none => ""
  "  " ++ Text.padded 16 p.key ++ " " ++ Text.padded 14 p.modifier.label ++ " " ++ schema

def description (q : Query) : List String :=
  let name := match q.name with
    | some name => ["Query: " ++ name]
    | none => []
  let placeholders :=
    if q.placeholders.isEmpty then ["(no placeholders)"]
    else "Placeholders:" :: q.placeholders.map placeholderLine
  name ++ ["Template: " ++ q.sql, ""] ++ placeholders

def labelled (label : String) (keys : List String) : List String :=
  if keys.isEmpty then [] else [label ++ ", ".intercalate keys]

/-- What the parameters leave open in the query, and what it becomes if that is nothing. -/
def verdict (q : Query) (a : Adapter) (params : Params) (v : Validation) : List String :=
  let resolved :=
    if v.isValid then
      match q.resolve a params with
      | .ok sql => ["Resolved SQL:", "  " ++ sql]
      | .error e => ["Unresolvable: " ++ e.message]
    else []
  labelled "Missing: " v.missing ++ labelled "Omitted fragments: " v.unresolvedOptional ++ resolved

def inspect (q : Query) (a : Adapter) (params : Params) : Report :=
  Report.followedBy ⟨q.description, none⟩ (.ofExcept do
    let v ← (q.template.validate params).mapError .failed
    return "" :: q.verdict a params v)

/-- Inspects queries one after the other, with an empty line between each two. -/
def inspectAll (a : Adapter) (params : Params) : List Query → Report
  | [] => ⟨[], none⟩
  | [q] => q.inspect a params
  | q :: rest =>
    (q.inspect a params).followedBy (Report.followedBy ⟨[""], none⟩ (inspectAll a params rest))

end Query

namespace Invocation

def render (around : Surroundings) (source : Source) (dialect : Dialect) :
    Except Failure (List String) := do
  let query ← source.query around.files
  let params ← source.parameters around.files
  let sql ← (query.resolve dialect.adapter params).mapError .failed
  return [sql]

/-- Sends the only query to the database and shows the rows. -/
def send (around : Surroundings) (url : String) (query : Query) (params : Params)
    (format : OutputFormat) : Except Failure (List String) := do
  let dialect ← (Dialect.ofConnection url).mapError .failed
  let backend ← (around.connect dialect url).mapError .failed
  let rows ← (query.run (dialect.connected backend) params).mapError .failed
  format.lines rows

/-- Runs the only query. The address of the database is looked for in the arguments, around the
command and in the settings. -/
def run (around : Surroundings) (settings : Settings) (verbose : Bool) (source : Source)
    (databaseUrl : Option String) (format : OutputFormat) : Report :=
  let prepared : Except Failure (Query × Params × String) := do
    let query ← source.query around.files
    let params ← source.parameters around.files
    match (databaseUrl.or around.databaseUrl).or settings.databaseUrl with
    | none => .error .noDatabase
    | some url => return (query, params, url)
  match prepared with
  | .error failure => ⟨[], some failure⟩
  | .ok (query, params, url) =>
    Report.followedBy ⟨if verbose then ["Connecting to: " ++ url] else [], none⟩
      (.ofExcept (send around url query params format))

def inspect (around : Surroundings) (source : Source) (dialect : Dialect) : Report :=
  let prepared : Except Failure (Params × List Query) := do
    let params ← source.parameters around.files
    let queries ← source.queries around.files
    return (params, queries)
  match prepared with
  | .error failure => ⟨[], some failure⟩
  | .ok (params, queries) => Query.inspectAll dialect.adapter params queries

def reportWith (i : Invocation) (around : Surroundings) (settings : Settings) : Report :=
  match i.action with
  | .reference => ⟨Reference.lines, none⟩
  | .render source dialect =>
    .ofExcept (render around source (dialect.getD settings.effectiveDialect))
  | .run source databaseUrl format =>
    run around settings i.verbose source databaseUrl (format.getD settings.format)
  | .inspect source dialect => inspect around source (dialect.getD settings.effectiveDialect)

/-- Does what is asked for. Only the reference needs no settings. -/
def report (i : Invocation) (around : Surroundings) : Report :=
  match i.action, Settings.load around.files around.userDirectory i.settingsFile with
  | .reference, _ => i.reportWith around .default
  | _, .ok settings => i.reportWith around settings
  | _, .error e => ⟨[], some (.failed e)⟩

def paths (i : Invocation) (userDirectory : Option String) : List String :=
  let ofSource (source : Source) : List String :=
    let params := match source.params.map String.toList with
      | some ('@' :: cs) => [String.ofList cs]
      | _ => []
    source.file.toList ++ params
  let settings := match i.settingsFile with
    | some path => [path]
    | none => Settings.searchPaths userDirectory
  match i.action with
  | .reference => []
  | .render source _ | .run source _ _ | .inspect source _ => settings ++ ofSource source

end Invocation

namespace Command

def version : String := "plainsql 0.3.0"

def usage : List String :=
  ["Usage: plainsql [--config FILE] [--verbose] COMMAND",
    "",
    "  render [SQL]    fill a template and print the SQL",
    "  run [SQL]       fill a template and run it",
    "  inspect [SQL]   show the placeholders of a template and check parameters",
    "  syntax          show the kinds of placeholders",
    "",
    "Templates: -f FILE, -n NAME. Parameters: -p JSON, -p @FILE.",
    "Dialect of render and inspect: -d postgres|mysql|sqlite|mssql.",
    "Database and output of run: --database-url URL, --format table|json."]

/-- What the request leads to. Arguments that are wrong are none. -/
def answer (request : Option Request) (around : Surroundings) : Outcome :=
  match request with
  | none => ⟨2, "", Outcome.joinLines usage⟩
  | some .version => ⟨0, Outcome.joinLines [version], ""⟩
  | some .help => ⟨0, Outcome.joinLines usage, ""⟩
  | some (.invoke invocation) => .ofReport (invocation.report around)

def run (arguments : List String) (around : Surroundings) : Outcome :=
  answer (Request.ofArguments arguments) around

end Command

end SqlTemplate
