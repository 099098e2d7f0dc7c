import SqlTemplate.Command

namespace SqlTemplate

/-- Why the system could not read a file. The code 21 is that of a directory. -/
def ReadFault.ofSystem : IO.Error → ReadFault
  | .noFileOrDirectory .. => .notFound
  | .inappropriateType _ 21 _ => .isDirectory
  | .inappropriateType .. => .notDirectory
  | e => .other e.toString

def readText (path : String) : IO (Except ReadFault String) := do
  try
    let content ← IO.FS.readBinFile path
    match String.fromUTF8? content with
    | some text => return .ok text
    | none => return .error .notText
  catch e => return .error (.ofSystem e)

def findUserDirectory : IO (Option String) := do
  match ← IO.getEnv "XDG_CONFIG_HOME" with
  | some directory => if directory.startsWith "/" then return some directory
  | none => pure ()
  return (← IO.getEnv "HOME").map (· ++ "/.config")

/-- No database driver is built in. -/
def refuseConnection (_dialect : Dialect) (url : String) : Except Error Backend :=
  .error (.connection ("no database driver for " ++ url))

/-- Reads every file that the request can need. -/
def readSurroundings (request : Option Request) : IO Surroundings := do
  let userDirectory ← findUserDirectory
  let paths := match request with
    | some (.invoke invocation) => invocation.paths userDirectory
    | _ => []
  let contents ← paths.mapM fun path => return (path, ← readText path)
  return {
    files := ⟨fun path => (contents.lookup path).getD (.error .notFound)⟩
    userDirectory
    databaseUrl := ← IO.getEnv "PLAINSQL_DATABASE_URL"
    connect := refuseConnection }

end SqlTemplate

open SqlTemplate in
def main (arguments : List String) : IO UInt32 := do
  let request := Request.ofArguments arguments
  let outcome := Command.answer request (← readSurroundings request)
  IO.print outcome.output
  IO.eprint outcome.errors
  return UInt32.ofNat outcome.code
