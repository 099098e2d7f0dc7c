import SqlTemplate.Error

/-!
What a run of a command amounts to: the lines it prints and, if it stops early, the failure.
-/

namespace SqlTemplate

/-- Why a command did not do all that it was asked to. -/
inductive Failure where
  | failed (error : Error)
  | noTemplate
  | notOneQuery (count : Nat) (names : List String)
  | fileNotLoaded (path : String)
  | paramsNotRead (path : String)
  | paramsNotJson
  | noDatabase
  /-- A column of a table is wider than anything can be padded. The program is broken off. -/
  | columnTooWide
deriving DecidableEq, Repr

namespace Failure

def message : Failure → String
  | .failed error => error.message
  | .noTemplate => "give the template as an argument or with --file"
  | .notOneQuery count names =>
    "expected one query, found " ++ toString count ++ "; pick one with --name (" ++
      ", ".intercalate names ++ ")"
  | .fileNotLoaded path => "failed to load '" ++ path ++ "'"
  | .paramsNotRead path => "failed to read parameters from '" ++ path ++ "'"
  | .paramsNotJson => "parameters are not valid JSON"
  | .noDatabase =>
    "no database URL; use --database-url, set PLAINSQL_DATABASE_URL, " ++
      "or add database_url to plainsql.toml"
  | .columnTooWide => "Formatting argument out of range"

/-- The message; for SQL that was rejected also the SQL and the cause. A program that is broken off writes
no lines of its own, and what the runtime notes about it is left out. -/
def lines : Failure → List String
  | .columnTooWide => []
  | .failed (.rejected query cause) =>
    ["Error: " ++ (Error.rejected query cause).message, "  Query: " ++ query, "  Cause: " ++ cause]
  | f => ["Error: " ++ f.message]

def exitCode : Failure → Nat
  | .columnTooWide => 101
  | _ => 1

@[simp]
theorem exitCode_ne_zero (f : Failure) : f.exitCode ≠ 0 := by
  cases f <;> exact Nat.succ_ne_zero _

end Failure

/-- What a command prints, and why it stopped if it did. -/
structure Report where
  lines : List String
  failure : Option Failure
deriving DecidableEq, Repr

namespace Report

def ofExcept : Except Failure (List String) → Report
  | .ok lines => ⟨lines, none⟩
  | .error failure => ⟨[], some failure⟩

/-- The second report follows unless the first one ends in a failure. -/
def followedBy (first second : Report) : Report :=
  match first.failure with
  | some _ => first
  | none => ⟨first.lines ++ second.lines, second.failure⟩

end Report

/-- How a run of the program ends: its exit code and what it writes to its two streams. -/
structure Outcome where
  code : Nat
  output : String
  errors : String
deriving DecidableEq, Repr

namespace Outcome

def joinLines (lines : List String) : String := String.join (lines.map (· ++ "\n"))

def ofReport (r : Report) : Outcome :=
  match r.failure with
  | none => ⟨0, joinLines r.lines, ""⟩
  | some failure => ⟨failure.exitCode, joinLines r.lines, joinLines failure.lines⟩

end Outcome

end SqlTemplate
